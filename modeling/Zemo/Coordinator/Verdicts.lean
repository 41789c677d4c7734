import Zemo.Coordinator.Recover

set_option autoImplicit false

/-! # Verdicts

What recovery decides about one request, as a function of what is stored and seen. A request that
is settled is decided by what is stored of it, and it stays settled, in the same way, whatever is
recorded afterwards about other requests; recording a verdict settles the request it is about. -/

namespace Zemo

variable {χ : Type}

/-! ## Standings -/

/-- The class of a request, without the item. -/
inductive Standing where
  | skipped
  | applied
  | notStarted
  | ambiguous
deriving DecidableEq, Repr

def RecoveredRequestClass.standing : RecoveredRequestClass → Standing
  | .skip => .skipped
  | .applied _ => .applied
  | .notStarted _ => .notStarted
  | .ambiguous _ => .ambiguous

def RecoveredRequestClass.item : RecoveredRequestClass → Option RecoveryItem
  | .skip => none
  | .applied item | .notStarted item | .ambiguous item => some item

/-- Recovery looks into the request: it is in flight, open, or was observed before. -/
def examined (events : List OperationJournalEvent) (request : ExecutorRequestRow)
    (op : ExecutionOperation) : Bool :=
  operationInterrupted op.status request.direction || request.state.isOpen
    || requestHasRecoveryObservation events request.requestId

variable (hashes : Hashes) (sessions : List ExecutorSessionIdentity)
  (events : List OperationJournalEvent) (request : ExecutorRequestRow) (op : ExecutionOperation)

/-- The request is bound to its session and its intent. -/
def Bound : Prop := executorRequestBindingError hashes request sessions events = none

instance : Decidable (Bound hashes sessions events request) := by
  unfold Bound; exact inferInstance

/-- What is stored of a request decides its standing. -/
def Settled : Standing → Prop
  | .ambiguous => ¬Bound hashes sessions events request ∨ request.state = .ambiguous
  | .skipped => Bound hashes sessions events request ∧ examined events request op = false
  | .notStarted =>
      Bound hashes sessions events request ∧
        requestHasRecoveryObservation events request.requestId = true ∧
        (request.state = .provenNotApplied ∨ request.state = .provenNotStarted) ∧
        operationInterrupted op.status request.direction = false
  | .applied =>
      Bound hashes sessions events request ∧
        requestHasRecoveryObservation events request.requestId = true ∧
        request.state = .provenApplied ∧ operationInterrupted op.status request.direction = false

/-- Recovery looks at the files for this request: it is bound, not ambiguous, and in flight or
    without a proof. -/
def NeedsLook : Prop :=
  Bound hashes sessions events request ∧ request.state ≠ .ambiguous ∧
    (operationInterrupted op.status request.direction = true ∨ request.state.isOpen = true)

instance : Decidable (NeedsLook hashes sessions events request op) := by
  unfold NeedsLook; exact inferInstance

/-- A verdict that records nothing, or that the request is ambiguous. -/
def RecoveryVerdict.Quiet (executionId : ExecutionId) (v : RecoveryVerdict) : Prop :=
  v.draft = none ∨ ∃ code reason, v = ambiguousVerdict executionId request op code reason

/-- The verdict is about this request. -/
def RecoveryVerdict.About (v : RecoveryVerdict) : Prop :=
  ∀ item ∈ v.found.item, item.operationId = op.id ∧ item.direction = request.direction

variable {hashes sessions events request op} {executionId : ExecutionId}

theorem examined_of_needsLook (h : NeedsLook hashes sessions events request op) :
    examined events request op = true := by
  rcases h.2.2 with h | h <;> simp [examined, h]

/-- The triage of a request that needs a look is to look. -/
theorem triage_of_needsLook (h : NeedsLook hashes sessions events request op) :
    triage hashes executionId request op sessions events = .observe := by
  have hbound : executorRequestBindingError hashes request sessions events = none := h.1
  have hexamined : ¬(operationInterrupted op.status request.direction || request.state.isOpen
      || requestHasRecoveryObservation events request.requestId) = false := by
    rw [Bool.not_eq_false]
    exact examined_of_needsLook h
  obtain ⟨-, hstate, hopen⟩ := h
  simp only [triage, hbound, if_neg hexamined]
  cases hs : request.state <;> cases hi : operationInterrupted op.status request.direction <;>
    simp_all [ExecutorRequestState.isOpen]

/-- The triage of a settled request is decided, quietly, with its standing. -/
theorem triage_of_settled {s : Standing} (h : Settled hashes sessions events request op s) :
    ∃ v, triage hashes executionId request op sessions events = .decided v ∧
      v.found.standing = s ∧ v.Quiet request op executionId ∧ v.About request op := by
  by_cases hbound : Bound hashes sessions events request
  · have hnone : executorRequestBindingError hashes request sessions events = none := hbound
    cases s with
    | skipped =>
        have hexamined := h.2
        refine ⟨quietVerdict .skip, ?_, rfl, .inl rfl, by simp [RecoveryVerdict.About, quietVerdict,
          RecoveredRequestClass.item]⟩
        rw [examined] at hexamined
        simp only [triage, hnone, if_pos hexamined]
    | applied =>
        obtain ⟨-, hobs, hstate, hnot⟩ := h
        refine ⟨quietVerdict (.applied (request.item op
          "Authenticated journal and postcondition proof recorded.")), ?_, rfl, .inl rfl, ?_⟩
        · simp [triage, hnone, hobs, hstate, hnot]
        · simp [RecoveryVerdict.About, quietVerdict, RecoveredRequestClass.item,
            ExecutorRequestRow.item]
    | notStarted =>
        obtain ⟨-, hobs, hstate, hnot⟩ := h
        refine ⟨quietVerdict (.notStarted (request.item op
          "Exact executor request was proven not applied.")), ?_, rfl, .inl rfl, ?_⟩
        · rcases hstate with hstate | hstate <;> simp [triage, hnone, hobs, hstate, hnot]
        · simp [RecoveryVerdict.About, quietVerdict, RecoveredRequestClass.item,
            ExecutorRequestRow.item]
    | ambiguous =>
        have hstate : request.state = .ambiguous := h.resolve_left fun hno => hno hbound
        refine ⟨quietVerdict (.ambiguous (request.item op
          "Executor request remains ambiguous.")), ?_, rfl, .inl rfl, ?_⟩
        · simp [triage, hnone, hstate, ExecutorRequestState.isOpen]
        · simp [RecoveryVerdict.About, quietVerdict, RecoveredRequestClass.item,
            ExecutorRequestRow.item]
  · have hambiguous : s = .ambiguous := by
      cases s with
      | ambiguous => rfl
      | _ => exact absurd h.1 hbound
    obtain ⟨reason, hreason⟩ := Option.ne_none_iff_exists'.1 hbound
    refine ⟨ambiguousVerdict executionId request op "executor_request_binding_invalid" reason, ?_,
      hambiguous ▸ rfl, .inr ⟨_, _, rfl⟩, ?_⟩
    · simp only [triage, hreason]
    · simp [RecoveryVerdict.About, ambiguousVerdict, RecoveredRequestClass.item,
        ExecutorRequestRow.item]

/-- A request is settled, or needs a look. -/
theorem settled_or_needsLook :
    (∃ s, Settled hashes sessions events request op s) ∨
      NeedsLook hashes sessions events request op := by
  by_cases hbound : Bound hashes sessions events request
  · by_cases hstate : request.state = .ambiguous
    · exact .inl ⟨.ambiguous, .inr hstate⟩
    · cases hopen : operationInterrupted op.status request.direction || request.state.isOpen with
      | true => exact .inr ⟨hbound, hstate, by simpa using hopen⟩
      | false =>
          obtain ⟨hnot, hclosed⟩ := by simpa using hopen
          refine .inl ?_
          cases hobs : requestHasRecoveryObservation events request.requestId with
          | false => exact ⟨.skipped, hbound, by simp [examined, hnot, hclosed, hobs]⟩
          | true =>
              cases hs : request.state with
              | provenNotApplied => exact ⟨.notStarted, hbound, hobs, .inl hs, hnot⟩
              | provenNotStarted => exact ⟨.notStarted, hbound, hobs, .inr hs, hnot⟩
              | provenApplied => exact ⟨.applied, hbound, hobs, hs, hnot⟩
              | ambiguous => exact absurd hs hstate
              | _ => rw [hs] at hclosed; cases hclosed
  · exact .inl ⟨.ambiguous, .inl hbound⟩

/-! ## Verdicts -/

/-- What recovery decides about a request. -/
def verdictOn (env : Env χ) (tree : Tree) (executionId : ExecutionId)
    (sessions : List ExecutorSessionIdentity) (events : List OperationJournalEvent)
    (request : ExecutorRequestRow) (op : ExecutionOperation) :
    Except ApplicationError RecoveryVerdict :=
  match triage env.hashes executionId request op sessions events with
  | .decided verdict => .ok verdict
  | .observe => (observe env.files tree request op).map (observedVerdict executionId request op)

/-- The events recovery records, with the standing each gives its request. -/
inductive RecoveryDraft (executionId : ExecutionId) (request : ExecutorRequestRow)
    (op : ExecutionOperation) : EventDraft → Standing → Prop where
  | ambiguous (code reason : String) :
      RecoveryDraft executionId request op (ambiguousDraft executionId request op code reason)
        .ambiguous
  | notStarted :
      RecoveryDraft executionId request op (notStartedDraft executionId request op) .notStarted
  | applied (fingerprint : Option FileFingerprint) :
      RecoveryDraft executionId request op
        (provenAppliedDraft executionId request op fingerprint) .applied

/-- The state an event that gives this standing proves of its request. -/
def Standing.proofState : Standing → ExecutorRequestState
  | .notStarted => .provenNotStarted
  | .applied => .provenApplied
  | .skipped | .ambiguous => .ambiguous

/-- The status such an event gives its operation. -/
def Standing.landing (direction : ExecutorRequestDirection) :
    Standing → Option ExecutionOperationStatus
  | .notStarted => some (if direction = .rollback then .applied else .preflightOk)
  | .applied => some (if direction = .rollback then .rolledBack else .recovered)
  | .skipped | .ambiguous => none

/-- What recovery may decide about a request: nothing new about a settled one, or what was seen. -/
inductive Verdict (env : Env χ) (tree : Tree) (executionId : ExecutionId)
    (sessions : List ExecutorSessionIdentity) (events : List OperationJournalEvent)
    (request : ExecutorRequestRow) (op : ExecutionOperation) (v : RecoveryVerdict) : Prop where
  | settled (h : Settled env.hashes sessions events request op v.found.standing)
      (quiet : v.Quiet request op executionId)
  | seen (observation : RecoveryObservation)
      (h : NeedsLook env.hashes sessions events request op)
      (observed : observe env.files tree request op = .ok observation)
      (eq : v = observedVerdict executionId request op observation)

variable {env : Env χ} {tree : Tree} {v : RecoveryVerdict}

theorem verdictOn_of_needsLook (h : NeedsLook env.hashes sessions events request op) :
    verdictOn env tree executionId sessions events request op =
      (observe env.files tree request op).map (observedVerdict executionId request op) := by
  rw [verdictOn, triage_of_needsLook h]

/-- The verdict on a settled request is quiet, with its standing, whatever the files are. -/
theorem verdictOn_of_settled {s : Standing} (h : Settled env.hashes sessions events request op s) :
    ∃ v, verdictOn env tree executionId sessions events request op = .ok v ∧
      v.found.standing = s ∧ v.Quiet request op executionId ∧ v.About request op := by
  obtain ⟨v, htriage, hv⟩ := @triage_of_settled _ _ _ _ _ executionId _ h
  exact ⟨v, by rw [verdictOn, htriage], hv⟩

theorem verdictOn_cases
    (h : verdictOn env tree executionId sessions events request op = .ok v) :
    Verdict env tree executionId sessions events request op v ∧ v.About request op := by
  rcases @settled_or_needsLook env.hashes sessions events request op with ⟨s, hs⟩ | hlook
  · obtain ⟨v', hv', rfl, hquiet, habout⟩ :=
      @verdictOn_of_settled _ _ _ _ _ executionId env tree _ hs
    obtain rfl := Except.ok.inj (hv'.symm.trans h)
    exact ⟨.settled hs hquiet, habout⟩
  · rw [verdictOn_of_needsLook hlook] at h
    cases hobs : observe env.files tree request op with
    | error e =>
        rw [hobs] at h
        cases h
    | ok observation =>
        rw [hobs] at h
        obtain rfl := Except.ok.inj h
        refine ⟨.seen observation hlook hobs rfl, ?_⟩
        unfold observedVerdict
        split <;> (try split) <;>
          simp [RecoveryVerdict.About, ambiguousVerdict, RecoveredRequestClass.item,
            ExecutorRequestRow.item]

/-- What recovery records of a verdict gives the request the standing of the verdict. -/
theorem Verdict.recoveryDraft (h : Verdict env tree executionId sessions events request op v)
    {draft : EventDraft} (hdraft : v.draft = some draft) :
    RecoveryDraft executionId request op draft v.found.standing := by
  cases h with
  | settled _ hquiet =>
      rcases hquiet with hnone | ⟨code, reason, rfl⟩
      · rw [hnone] at hdraft
        cases hdraft
      · obtain rfl := Option.some.inj hdraft
        exact .ambiguous code reason
  | seen observation _ _ heq =>
      subst heq
      unfold observedVerdict at hdraft ⊢
      split at hdraft
      · split at hdraft
        · rw [if_pos ‹_›]
          obtain rfl := Option.some.inj hdraft
          exact .ambiguous _ _
        · rw [if_neg ‹_›]
          obtain rfl := Option.some.inj hdraft
          exact .notStarted
      · split at hdraft
        · rw [if_pos ‹_›]
          obtain rfl := Option.some.inj hdraft
          exact .ambiguous _ _
        · rw [if_neg ‹_›]
          obtain rfl := Option.some.inj hdraft
          exact .applied _
      · obtain rfl := Option.some.inj hdraft
        exact .ambiguous _ _

/-- A look always ends in a record. -/
theorem observedVerdict_draft (observation : RecoveryObservation) :
    ∃ draft, (observedVerdict executionId request op observation).draft = some draft := by
  unfold observedVerdict
  split <;> (try split) <;> exact ⟨_, rfl⟩

namespace RecoveryDraft

variable {draft : EventDraft} {s : Standing}

theorem executionId_eq (h : RecoveryDraft executionId request op draft s) :
    draft.executionId = executionId := by cases h <;> rfl

theorem stepId_eq (h : RecoveryDraft executionId request op draft s) :
    draft.stepId = some op.id := by cases h <;> rfl

theorem noIntent (h : RecoveryDraft executionId request op draft s) :
    draft.requestIntent = none := by cases h <;> rfl

theorem kind_ne (h : RecoveryDraft executionId request op draft s)
    (direction : ExecutorRequestDirection) : draft.kind ≠ direction.intentKind := by
  cases h <;> cases direction <;> exact nofun

theorem observes (h : RecoveryDraft executionId request op draft s) :
    draft.payload.event = "recovery_observed" ∧
      draft.payload.requestId = some request.requestId := by cases h <;> exact ⟨rfl, rfl⟩

theorem proof_eq (h : RecoveryDraft executionId request op draft s) :
    draft.requestProof = some (request.requestId, s.proofState) := by cases h <;> rfl

theorem operationStatus_eq (h : RecoveryDraft executionId request op draft s) :
    draft.operationStatus = s.landing request.direction := by cases h <;> rfl

theorem standing_ne (h : RecoveryDraft executionId request op draft s) : s ≠ .skipped := by
  cases h <;> simp

end RecoveryDraft

/-- A status that recovery gives an operation is not in flight. -/
theorem Standing.landing_not_interrupted {s : Standing} {direction d : ExecutorRequestDirection}
    {status : ExecutionOperationStatus} (h : s.landing direction = some status) :
    operationInterrupted status d = false := by
  cases s <;> cases direction <;> cases d <;> simp_all [Standing.landing] <;>
    subst h <;> rfl

/-! ## Settled requests stay settled -/

theorem bindingError_atIntent (request : ExecutorRequestRow) :
    executorRequestBindingError hashes request.atIntent sessions events
      = executorRequestBindingError hashes request sessions events := rfl

/-- Events that are no intents do not bind a request and do not unbind it. -/
theorem bound_append {news : List OperationJournalEvent} {later : ExecutorRequestRow}
    (hlater : later.atIntent = request.atIntent)
    (hnews : ∀ event ∈ news, event.kind ≠ request.direction.intentKind) :
    Bound hashes sessions (events ++ news) later ↔ Bound hashes sessions events request := by
  have heq : executorRequestBindingError hashes later sessions (events ++ news)
      = executorRequestBindingError hashes request sessions (events ++ news) := by
    rw [← bindingError_atIntent later, hlater, bindingError_atIntent]
  rw [Bound, Bound, heq]
  unfold executorRequestBindingError
  split
  · exact Iff.rfl
  · rw [List.find?_append]
    cases hold : events.find? (·.sequence = request.intentEventSequence) with
    | some event => rfl
    | none =>
        rw [Option.none_or]
        cases hnew : news.find? (·.sequence = request.intentEventSequence) with
        | none => exact Iff.rfl
        | some event =>
            have hkind := hnews event (List.mem_of_find?_eq_some hnew)
            simp [hkind]

/-- What does not concern a request leaves it settled as it was. -/
theorem Settled.later {s : Standing} {events' : List OperationJournalEvent}
    {later : ExecutorRequestRow} {op' : ExecutionOperation}
    (h : Settled hashes sessions events request op s)
    (hbound : Bound hashes sessions events' later ↔ Bound hashes sessions events request)
    (hobs : requestHasRecoveryObservation events' later.requestId
      = requestHasRecoveryObservation events request.requestId)
    (hstate : later.state = request.state) (hdir : later.direction = request.direction)
    (hop : operationInterrupted op'.status request.direction = true →
      operationInterrupted op.status request.direction = true) :
    Settled hashes sessions events' later op' s := by
  have hnot : operationInterrupted op.status request.direction = false →
      operationInterrupted op'.status later.direction = false := by
    rw [hdir]
    intro hold
    by_contra hnew
    rw [Bool.not_eq_false] at hnew
    rw [hop hnew] at hold
    cases hold
  cases s with
  | ambiguous =>
      rcases h with h | h
      · exact .inl (hbound.not.2 h)
      · exact .inr (hstate.trans h)
  | skipped =>
      obtain ⟨hb, hexamined⟩ := h
      simp only [examined, Bool.or_eq_false_iff] at hexamined
      refine ⟨hbound.2 hb, ?_⟩
      simp only [examined, Bool.or_eq_false_iff]
      exact ⟨⟨hnot hexamined.1.1, hstate ▸ hexamined.1.2⟩, hobs.trans hexamined.2⟩
  | notStarted =>
      obtain ⟨hb, ho, hs, hi⟩ := h
      exact ⟨hbound.2 hb, hobs.trans ho, hstate.symm ▸ hs, hnot hi⟩
  | applied =>
      obtain ⟨hb, ho, hs, hi⟩ := h
      exact ⟨hbound.2 hb, hobs.trans ho, hstate.trans hs, hnot hi⟩

/-- A recorded verdict settles its request. -/
theorem RecoveryDraft.settles {draft : EventDraft} {s : Standing}
    {events' : List OperationJournalEvent} {later : ExecutorRequestRow} {op' : ExecutionOperation}
    (h : RecoveryDraft executionId request op draft s)
    (hbound : s ≠ .ambiguous → Bound hashes sessions events' later)
    (hobs : requestHasRecoveryObservation events' later.requestId = true)
    (hstate : later.state = s.proofState)
    (hop : s ≠ .ambiguous → operationInterrupted op'.status later.direction = false) :
    Settled hashes sessions events' later op' s := by
  cases h with
  | ambiguous => exact .inr hstate
  | notStarted => exact ⟨hbound (by simp), hobs, .inr hstate, hop (by simp)⟩
  | applied => exact ⟨hbound (by simp), hobs, hstate, hop (by simp)⟩

end Zemo
