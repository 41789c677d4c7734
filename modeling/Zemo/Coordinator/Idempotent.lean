import Zemo.Coordinator.Assessment

set_option autoImplicit false

/-! # Recovering twice

After a recovery every request is settled as it was classified. A second recovery therefore reads
the same classes off what is stored, whatever the files are, and records nothing but that ambiguous
requests are ambiguous: it finds the same items and leaves every operation as it is. -/

namespace Zemo

variable {χ : Type}

/-! ## The same findings -/

/-- What an item is about. -/
def RecoveryItem.about (item : RecoveryItem) : OperationStepId × ExecutorRequestDirection :=
  (item.operationId, item.direction)

/-- Two classes of the same standing about the same request. -/
structure SameClass (c c' : RecoveredRequestClass) : Prop where
  standing : c.standing = c'.standing
  about : c.item.map (·.about) = c'.item.map (·.about)

/-- Two lists of findings about the same requests. -/
structure SameItems (items items' : RecoveryItems) : Prop where
  applied : items.applied.map (·.about) = items'.applied.map (·.about)
  notStarted : items.notStarted.map (·.about) = items'.notStarted.map (·.about)
  ambiguous : items.ambiguous.map (·.about) = items'.ambiguous.map (·.about)

theorem SameItems.refl (items : RecoveryItems) : SameItems items items := ⟨rfl, rfl, rfl⟩

theorem SameItems.add {items items' : RecoveryItems} {c c' : RecoveredRequestClass}
    (h : SameItems items items') (hc : SameClass c c') : SameItems (items.add c) (items'.add c') := by
  obtain ⟨hstanding, habout⟩ := hc
  obtain ⟨happlied, hnotStarted, hambiguous⟩ := h
  cases c <;> cases c' <;> cases hstanding
  case skip.skip => exact ⟨happlied, hnotStarted, hambiguous⟩
  all_goals
    have hitem := Option.some.inj habout
    constructor <;> simp [RecoveryItems.add, *]

theorem SameItems.foldl {classes classes' : List RecoveredRequestClass}
    (h : List.Forall₂ SameClass classes classes') {items items' : RecoveryItems}
    (hitems : SameItems items items') :
    SameItems (classes.foldl RecoveryItems.add items) (classes'.foldl RecoveryItems.add items') := by
  induction h generalizing items items' with
  | nil => exact hitems
  | cons hc _ ih => exact ih (hitems.add hc)

theorem SameItems.addUnrequested {items items' : RecoveryItems} (h : SameItems items items')
    (requests : List ExecutorRequestRow) (events : List OperationJournalEvent)
    (operations : List ExecutionOperation) :
    SameItems (addUnrequested requests events operations items)
      (addUnrequested requests events operations items') := by
  unfold Zemo.addUnrequested
  generalize operations.filter (fun op => requests.all (·.operationId ≠ op.id)) = unrequested
  induction unrequested generalizing items items' with
  | nil => exact h
  | cons op rest ih => exact ih (h.add ⟨rfl, rfl⟩)

theorem SameItems.state {items items' : RecoveryItems} (h : SameItems items items') :
    items.state = items'.state := by
  have hlength : items.ambiguous.length = items'.ambiguous.length := by
    simpa using congrArg List.length h.ambiguous
  rw [RecoveryItems.state, RecoveryItems.state, hlength]

/-- Two classes found of the same request with the same standing are the same. -/
theorem sameClass_of_about {request row : ExecutorRequestRow} {c c' : RecoveredRequestClass}
    (hrow : row.atIntent = request.atIntent) (hstanding : c.standing = c'.standing)
    (hc : ∀ item ∈ c.item, item.operationId = request.operationId ∧
      item.direction = request.direction)
    (hc' : ∀ item ∈ c'.item, item.operationId = row.operationId ∧
      item.direction = row.direction) : SameClass c c' := by
  refine ⟨hstanding, ?_⟩
  rw [operationId_of_atIntent hrow, direction_of_atIntent hrow] at hc'
  cases c <;> cases c' <;> cases hstanding
  case skip.skip => rfl
  all_goals
    obtain ⟨h1, h2⟩ := hc _ rfl
    obtain ⟨h1', h2'⟩ := hc' _ rfl
    simp [RecoveredRequestClass.item, RecoveryItem.about, h1, h2, h1', h2']

/-! ## Operations without a request -/

/-- An operation without a request is as it was before a recovery, and is classified as it was. -/
theorem Since.addUnrequested {w w' : World χ} {done : List ExecutorRequestRow}
    (h : Since done w w') (hdone : ∀ r ∈ done, r ∈ w.db.executorRequests) (items : RecoveryItems) :
    addUnrequested w'.db.executorRequests w'.db.journal w'.db.operations items =
      Zemo.addUnrequested w.db.executorRequests w.db.journal w.db.operations items := by
  obtain ⟨news, hjournal, hnews⟩ := h.journal
  obtain ⟨f, hrows, hf⟩ := h.requests
  obtain ⟨g, hops, hg⟩ := h.operations
  have hunrequested : ∀ op : ExecutionOperation,
      (w'.db.executorRequests.all (·.operationId ≠ op.id)) =
        w.db.executorRequests.all (·.operationId ≠ op.id) := by
    intro op
    rw [hrows, List.all_map]
    refine congrArg (List.all _) (funext fun row => ?_)
    simp only [Function.comp, operationId_of_atIntent (hf row).1]
  have hfix : ∀ op, w.db.executorRequests.all (·.operationId ≠ op.id) = true → g op = op := by
    intro op hall
    refine (hg op).2.2 fun r hr => ?_
    simpa using List.all_eq_true.1 hall r (hdone r hr)
  -- the operations without a request are the same
  have hfilter : w'.db.operations.filter (fun op => w'.db.executorRequests.all (·.operationId ≠ op.id))
      = w.db.operations.filter fun op => w.db.executorRequests.all (·.operationId ≠ op.id) := by
    rw [hops, List.filter_map]
    have hcongr : (fun op => w'.db.executorRequests.all (·.operationId ≠ op.id)) ∘ g
        = fun op => w.db.executorRequests.all (·.operationId ≠ op.id) := by
      funext op
      simp only [Function.comp, hunrequested, (hg op).1]
    rw [hcongr]
    refine (List.map_congr_left fun op hop => ?_).trans (List.map_id _)
    exact hfix op (List.mem_filter.1 hop).2
  unfold Zemo.addUnrequested
  rw [hfilter]
  refine List.foldl_ext _ _ _ fun items op hop => ?_
  -- and no event of theirs was added
  have hclassify : classifyUnrequested w'.db.journal op = classifyUnrequested w.db.journal op := by
    have hnone : (news.any fun event => event.stepId = some op.id
        && event.kind = .appliedObserved) = false := by
      rw [List.any_eq_false]
      intro event hmem
      obtain ⟨-, r, hr, -, hstep⟩ := hnews event hmem
      have hne : r.operationId ≠ op.id := by
        simpa using List.all_eq_true.1 (List.mem_filter.1 hop).2 r (hdone r hr)
      simp [hstep, hne]
    unfold classifyUnrequested
    simp only [hjournal, List.any_append, hnone, Bool.or_false]
  rw [hclassify]

/-! ## A pass over settled requests -/

/-- An operation's id and status. -/
def ExecutionOperation.idStatus (op : ExecutionOperation) :
    OperationStepId × ExecutionOperationStatus :=
  (op.id, op.status)

/-- A pass over settled requests leaves the status of every operation. -/
theorem Pass.statuses {env : Env χ} {executionId : ExecutionId}
    {operations : List ExecutionOperation} {sessions : List ExecutorSessionIdentity}
    {events : List OperationJournalEvent} {requests : List ExecutorRequestRow} {w w' : World χ}
    {classes : List RecoveredRequestClass}
    (h : Pass env executionId operations sessions events requests w classes w')
    (hsettled : ∀ request ∈ requests, ∀ op, operations.find? (·.id = request.operationId) = some op →
      ∃ s, Settled env.hashes sessions events request op s) :
    w'.db.operations.map (·.idStatus) = w.db.operations.map (·.idStatus) := by
  induction h with
  | nil w => rfl
  | @cons request op v rest classes w w₁ w₂ found verdict recorded later ih =>
      refine (ih fun r hr => hsettled r (List.mem_cons_of_mem _ hr)).trans ?_
      obtain ⟨s, hs⟩ := hsettled request (List.mem_cons_self ..) op found
      obtain ⟨v', hverdict, -, hquiet, -⟩ :=
        @verdictOn_of_settled _ _ _ _ _ executionId env w.outside.tree _ hs
      obtain rfl := Except.ok.inj (hverdict.symm.trans verdict)
      rcases hquiet with hnone | ⟨code, reason, rfl⟩
      · rw [hnone] at recorded
        rw [show w₁ = w from recorded]
      · -- an ambiguous request leaves its operation in flight
        have hd : RecoveryDraft executionId request op
            (ambiguousDraft executionId request op code reason) .ambiguous := .ambiguous code reason
        rw [hd.operations_eq recorded, List.map_map]
        refine List.map_congr_left fun stored _ => ?_
        simp only [Function.comp]
        split
        · exact Prod.ext rfl (@RecoveryDraft.status_after _ env w _ _ _ _ _ hd stored)
        · rfl

/-! ## The second recovery -/

/-- Both assessments name the same operations and directions, in the same recovery state. -/
structure SameAssessment (a a' : RecoveryAssessment) : Prop where
  applied : a.verifiedAppliedItems.map (·.about) = a'.verifiedAppliedItems.map (·.about)
  notStarted : a.verifiedNotStartedItems.map (·.about) = a'.verifiedNotStartedItems.map (·.about)
  ambiguous : a.ambiguousItems.map (·.about) = a'.ambiguousItems.map (·.about)
  state : a.state = a'.state

theorem RecoveryItems.needsRecovery (items : RecoveryItems) :
    items.state.sessionStatus.needsRecovery = true := by
  unfold RecoveryItems.state
  split <;> rfl

/-- Two relations to one list, joined. -/
theorem forall₂_join {α β γ : Type} {R : α → β → Prop} {S : α → γ → Prop} {T : β → γ → Prop}
    {l : List α} {m : List β} {n : List γ} (hR : List.Forall₂ R l m) (hS : List.Forall₂ S l n)
    (h : ∀ a b c, R a b → S a c → T b c) : List.Forall₂ T m n := by
  induction hR generalizing n with
  | nil =>
      obtain rfl := List.forall₂_nil_left_iff.1 hS
      exact .nil
  | cons hab _ ih =>
      obtain ⟨c, n', hac, hrest, rfl⟩ := List.forall₂_cons_left_iff.1 hS
      exact .cons (h _ _ _ hab hac) (ih hrest)

section Second

variable {env : Env χ} {w w₁ u : World χ} {classes : List RecoveredRequestClass}
  {done : List ExecutorRequestRow}

/-- The world `u` has the rows a recovery from `w` left, up to the record of its findings. -/
structure After (env : Env χ) (w w₁ u : World χ) (done : List ExecutorRequestRow)
    (classes : List RecoveredRequestClass) : Prop where
  recovered : Recovered env w classes w₁
  found : List.Forall₂ (ClassOf env w₁) w.db.executorRequests classes
  since : Since done w w₁
  own : ∀ r ∈ done, r ∈ w.db.executorRequests
  assessed : Assessed (itemsOf w.db classes) w₁.db u.db
  outside : u.outside = w₁.outside
  diagnostics : u.diagnostics = w₁.diagnostics
  external : u.external = w₁.external
  turns : u.turns = []

theorem After.journalInvariant (h : After env w w₁ u done classes) :
    JournalInvariant env.store.codec u.db := by
  have hj := h.recovered.calm.journal
  refine ⟨?_, ?_, ?_⟩
  · rw [h.assessed.journal]
    exact hj.chained
  · rw [h.assessed.journal, h.assessed.journalSequence]
    exact hj.sequence
  · rw [h.assessed.journal, h.assessed.chainHead]
    exact hj.head

theorem After.keyed (h : After env w w₁ u done classes) (hkeyed : Keyed w.db) : Keyed u.db := by
  obtain ⟨f, hrows, hf⟩ := h.since.requests
  obtain ⟨g, hops, hg⟩ := h.since.operations
  refine ⟨?_, ?_⟩
  · rw [h.assessed.operations, hops, List.map_map]
    exact (List.map_congr_left fun op _ => (hg op).1) ▸ hkeyed.operations
  · rw [h.assessed.requests, hrows, List.map_map]
    exact (List.map_congr_left fun row _ => requestId_of_atIntent (hf row).1) ▸ hkeyed.requests

theorem After.readable (h : After env w w₁ u done classes) :
    validateStoredConsent u.db.consent = true := by
  rw [h.assessed.consent, h.since.consent]
  exact h.recovered.readable

theorem After.recoverable (h : After env w w₁ u done classes) : Recoverable u where
  diagnostics := by
    rw [h.diagnostics, h.since.diagnostics]
    exact h.recovered.recoverable.diagnostics
  status := by
    rw [h.assessed.status]
    exact RecoveryItems.needsRecovery _
  synced := by
    rw [h.external, h.assessed.journal]
    exact h.recovered.calm.synced
  root := by
    rw [h.outside, h.assessed.rootId, h.since.outside, h.since.rootId]
    exact h.recovered.recoverable.root
  rootValid := by
    rw [h.outside, h.since.outside]
    exact h.recovered.recoverable.rootValid

/-- The stored request is settled as the recovery classified it. -/
theorem After.settled (h : After env w w₁ u done classes) {request row : ExecutorRequestRow}
    {c : RecoveredRequestClass} (hclass : ClassOf env w₁ request c)
    (hrow : row ∈ u.db.executorRequests) (hid : row.requestId = request.requestId)
    {op : ExecutionOperation} (hop : u.db.operations.find? (·.id = row.operationId) = some op) :
    Settled env.hashes u.db.executorSessions u.db.journal row op c.standing := by
  obtain ⟨hmem, hopId⟩ := mem_of_find_id hop
  rw [h.assessed.requests] at hrow
  rw [h.assessed.operations] at hmem
  rw [h.assessed.sessions, h.assessed.journal]
  exact hclass.settled row hrow hid op hmem hopId

/-- A stored request is one the recovery classified. -/
theorem After.origin (h : After env w w₁ u done classes) {row : ExecutorRequestRow}
    (hrow : row ∈ u.db.executorRequests) : ∃ request ∈ w.db.executorRequests, ∃ c,
      ClassOf env w₁ request c ∧ row.atIntent = request.atIntent := by
  obtain ⟨f, hrows, hf⟩ := h.since.requests
  have hboth : List.Forall₂ (fun request _ => (∃ c, ClassOf env w₁ request c) ∧ True)
      w.db.executorRequests classes := h.found.imp fun request c hc => ⟨⟨c, hc⟩, trivial⟩
  obtain ⟨request, hrequest, rfl⟩ : ∃ request ∈ w.db.executorRequests, f request = row := by
    rwa [h.assessed.requests, hrows, List.mem_map] at hrow
  obtain ⟨c, hclass⟩ := ((List.forall₂_and_left _ _).1 hboth).1 request hrequest
  exact ⟨request, hrequest, c, hclass, (hf request).1⟩

/-- Every request of the second recovery has a sound verdict. -/
theorem After.sound (h : After env w w₁ u done classes)
    (hknown : ∀ request ∈ w.db.executorRequests, ∃ op ∈ w.db.operations,
      op.id = request.operationId) :
    ∀ row ∈ u.db.executorRequests, HasSoundVerdict env u row := by
  obtain ⟨g, hops, hg⟩ := h.since.operations
  intro row hrow
  obtain ⟨request, hrequest, c, hclass, hsame⟩ := h.origin hrow
  obtain ⟨op, hop, hopId⟩ := hknown request hrequest
  obtain ⟨stored, hstored⟩ : ∃ stored,
      u.db.operations.find? (·.id = row.operationId) = some stored := by
    rw [← Option.isSome_iff_exists, List.find?_isSome, h.assessed.operations, hops,
      operationId_of_atIntent hsame]
    exact ⟨g op, List.mem_map_of_mem hop, decide_eq_true ((hg op).1.trans hopId)⟩
  have hsettled := h.settled hclass hrow (requestId_of_atIntent hsame) hstored
  obtain ⟨v, hverdict, -, hquiet, -⟩ :=
    @verdictOn_of_settled _ _ _ _ _ u.db.session.id env u.outside.tree _ hsettled
  exact ⟨stored, v, hstored, hverdict, hquiet.sound⟩

/-- The second recovery classifies every request as the first did. -/
theorem After.sameClass (h : After env w w₁ u done classes) (hkeyed : Keyed w.db)
    {classes' : List RecoveredRequestClass} {u₁ : World χ}
    (h' : Recovered env u classes' u₁) : List.Forall₂ SameClass classes classes' := by
  have hkeyed' := h.keyed hkeyed
  obtain ⟨f, hrows, hf⟩ := h.since.requests
  have hsound := h'.pass.sound hkeyed' (since_synchronized u) (fun r hr => hr) hkeyed'.requests
    (by simp)
  rw [h.assessed.requests, hrows, List.forall₂_map_left_iff] at hsound
  have hfound := (List.forall₂_and_left _ _).2 ⟨fun request hrequest => hrequest, h.found⟩
  refine forall₂_join hfound hsound fun request c c' hclass hverdict => ?_
  obtain ⟨hrequest, hclass⟩ := hclass
  obtain ⟨op, v, hop, hverdict, -, rfl⟩ := hverdict
  have hrow : f request ∈ u.db.executorRequests := by
    rw [h.assessed.requests, hrows]
    exact List.mem_map_of_mem hrequest
  have hsettled := h.settled hclass hrow (requestId_of_atIntent (hf request).1) hop
  obtain ⟨v', hv', hstanding, -, habout⟩ :=
    @verdictOn_of_settled _ _ _ _ _ u.db.session.id env u.outside.tree _ hsettled
  obtain rfl := Except.ok.inj (hv'.symm.trans hverdict)
  refine sameClass_of_about (hf request).1 hstanding.symm hclass.about fun item hitem => ?_
  obtain ⟨hopId, hdir⟩ := habout item hitem
  exact ⟨hopId.trans (mem_of_find_id hop).2, hdir⟩

/-- The second recovery finds the same items. -/
theorem After.sameItems (h : After env w w₁ u done classes) (hkeyed : Keyed w.db)
    {classes' : List RecoveredRequestClass} {u₁ : World χ} (h' : Recovered env u classes' u₁) :
    SameItems (itemsOf w.db classes) (itemsOf u.db classes') := by
  have hitems : itemsOf u.db classes' = addUnrequested w.db.executorRequests w.db.journal
      w.db.operations (classes'.foldl RecoveryItems.add {}) := by
    rw [itemsOf, h.assessed.requests, h.assessed.journal, h.assessed.operations]
    exact h.since.addUnrequested h.own _
  rw [hitems]
  exact ((SameItems.refl {}).foldl (h.sameClass hkeyed h')).addUnrequested _ _ _

/-- The second recovery leaves every operation in its status. -/
theorem After.statuses (h : After env w w₁ u done classes)
    {classes' : List RecoveredRequestClass} {u₁ : World χ} (h' : Recovered env u classes' u₁) :
    u₁.db.operations.map (·.idStatus) = u.db.operations.map (·.idStatus) := by
  refine h'.pass.statuses fun row hrow op hop => ?_
  obtain ⟨request, -, c, hclass, hsame⟩ := h.origin hrow
  exact ⟨c.standing, h.settled hclass hrow (requestId_of_atIntent hsame) hop⟩

end Second

end Zemo
