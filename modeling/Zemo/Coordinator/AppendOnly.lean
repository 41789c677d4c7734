import Mathlib.Logic.Relation
import Zemo.Coordinator.Intents
import Zemo.Lib.Pointwise

set_option autoImplicit false

/-! # The record of an execution only grows

Whatever the service does, what the database says of an execution is added to and never taken back:
the journal and the executor sessions grow at their ends, no request disappears, its state moves
along the allowed transitions only, and an answer that was recorded stays as it is. -/

namespace Zemo

variable {χ : Type}

/-! ## Requests -/

/-- A later form of a request. -/
structure ExecutorRequestRow.Advances (row later : ExecutorRequestRow) : Prop where
  intent : later.atIntent = row.atIntent
  state : Relation.ReflTransGen (fun s t => s.mayTransitionTo t = true) row.state later.state
  /-- After the executor answered, only the state and the time of a proof change. -/
  answered : row.responseDigest ≠ none →
    later = { row with state := later.state, proofRecordedAt := later.proofRecordedAt }
  proven : row.proofRecordedAt ≠ none → later.proofRecordedAt = row.proofRecordedAt

theorem ExecutorRequestRow.Advances.refl (row : ExecutorRequestRow) : row.Advances row :=
  ⟨rfl, .refl, fun _ => rfl, fun _ => rfl⟩

theorem ExecutorRequestRow.Advances.trans {a b c : ExecutorRequestRow} (h : a.Advances b)
    (h' : b.Advances c) : a.Advances c where
  intent := h'.intent.trans h.intent
  state := h.state.trans h'.state
  answered hdigest := by
    have hb := h.answered hdigest
    have hc := h'.answered (by rw [hb]; exact hdigest)
    rw [hb] at hc
    exact hc
  proven hrecorded := by
    have hb := h.proven hrecorded
    rw [h'.proven (hb ▸ hrecorded), hb]

/-- A proof is recorded for a request that may move to its state. -/
theorem ExecutorRequestRow.advances_withProof {row : ExecutorRequestRow}
    {next : ExecutorRequestState} (h : row.state.mayTransitionTo next = true) (at_ : String) :
    row.Advances (row.withProof next at_) where
  intent := rfl
  state := .single h
  answered _ := rfl
  proven hrecorded := by
    show row.proofRecordedAt.or (some at_) = row.proofRecordedAt
    cases hrow : row.proofRecordedAt with
    | none => exact absurd hrow hrecorded
    | some time => rfl

/-- Nothing but an ambiguity can come after a proof. -/
theorem ExecutorRequestRow.Advances.settled {row later : ExecutorRequestRow}
    (h : row.Advances later) (hsettled : row.state = .provenApplied ∨
      row.state = .provenNotStarted ∨ row.state = .ambiguous) :
    later.state = row.state ∨ later.state = .ambiguous := by
  have hstate := h.state
  generalize later.state = final at hstate ⊢
  induction hstate with
  | refl => exact .inl rfl
  | @tail state next _ hmay ih =>
      rcases ih with rfl | rfl
      · rcases hsettled with hrow | hrow | hrow
        all_goals
          rw [hrow] at hmay ⊢
          revert hmay
          cases next <;> decide
      · right
        revert hmay
        cases next <;> decide

/-- The requests, place by place. -/
abbrev RowsAdvance : List ExecutorRequestRow → List ExecutorRequestRow → Prop :=
  List.Forall₂ ExecutorRequestRow.Advances

theorem RowsAdvance.refl (rows : List ExecutorRequestRow) : RowsAdvance rows rows :=
  List.forall₂_same.2 fun row _ => .refl row

/-- The requests with an id advance, the others stay. -/
theorem rowsAdvance_update {rows : List ExecutorRequestRow} {requestId : String}
    {f : ExecutorRequestRow → ExecutorRequestRow}
    (h : ∀ row ∈ rows, row.requestId = requestId → row.Advances (f row)) :
    RowsAdvance rows (rows.map fun row => if row.requestId = requestId then f row else row) := by
  rw [RowsAdvance, List.forall₂_map_right_iff, List.forall₂_same]
  intro row hrow
  split
  · exact h row hrow ‹_›
  · exact .refl row

/-! ## What a call leaves of the record -/

variable {ctx : StoreContext} {db db' : Database}

/-- The request with an id is the one that is found. -/
theorem RequestInvariant.eq_of_find (h : RequestInvariant db) {row found : ExecutorRequestRow}
    {requestId : String} (hrow : row ∈ db.executorRequests) (hid : row.requestId = requestId)
    (hfound : db.executorRequests.find? (·.requestId = requestId) = some found) : row = found := by
  have hnodup : (db.executorRequests.map (·.requestId)).Nodup := by
    have hids := h.requestIds
    rwa [Database.intendedRequests, List.map_map] at hids
  have hsame : found.requestId = requestId := by simpa using List.find?_some hfound
  exact List.inj_on_of_nodup_map hnodup hrow (List.mem_of_find?_eq_some hfound)
    (hid.trans hsame.symm)

/-- The record is a later form of `db`. -/
structure Database.Extends (db later : Database) : Prop where
  plan : later.session.planDigest = db.session.planDigest
  journal : db.journal <+: later.journal
  sessions : db.executorSessions <+: later.executorSessions
  operations : List.Forall₂ ExecutionOperation.Continues db.operations later.operations
  requests : ∃ rows more, later.executorRequests = rows ++ more ∧
    RowsAdvance db.executorRequests rows

theorem Database.Extends.refl (db : Database) : db.Extends db where
  plan := rfl
  journal := List.prefix_rfl
  sessions := List.prefix_rfl
  operations := List.forall₂_same.2 fun op _ => .refl op
  requests := ⟨_, [], (List.append_nil _).symm, .refl _⟩

theorem Database.Extends.trans {a b c : Database} (h : a.Extends b) (h' : b.Extends c) :
    a.Extends c where
  plan := h'.plan.trans h.plan
  journal := h.journal.trans h'.journal
  sessions := h.sessions.trans h'.sessions
  operations := Pointwise.comp h.operations h'.operations fun _ _ _ => .trans
  requests := by
    obtain ⟨rows, more, hb, hrows⟩ := h.requests
    obtain ⟨rows', more', hc, hrows'⟩ := h'.requests
    have hfirst := List.forall₂_take rows.length hrows'
    rw [hb, List.take_left] at hfirst
    refine ⟨rows'.take rows.length, rows'.drop rows.length ++ more', ?_,
      Pointwise.comp hrows hfirst fun _ _ _ => .trans⟩
    rw [hc, ← List.append_assoc, List.take_append_drop]

/-- A call that is no event only answers and proves requests. -/
theorem DbCall.step_requests {call : DbCall} (hcall : ∀ w, call ≠ .event w)
    (h : RequestInvariant db) :
    RowsAdvance db.executorRequests (call.step ctx db).executorRequests := by
  have same : ∀ {db' : Database}, db'.executorRequests = db.executorRequests →
      RowsAdvance db.executorRequests db'.executorRequests := fun heq => heq ▸ .refl _
  have frame : ∀ {α : Type} {tx : Database → Except PersistenceError (TxEnd α)},
      (∀ db' a, tx db = .ok (.commit db' a) →
        RowsAdvance db.executorRequests db'.executorRequests) →
      RowsAdvance db.executorRequests (db.transact tx).2.executorRequests := by
    intro α tx htx
    rcases db.transact_cases tx with heq | ⟨a, heq⟩
    · exact same (by rw [heq])
    · exact htx _ a heq
  unfold DbCall.step DbCall.run
  cases call with
  | issueConsentChallenge nonce issued expires =>
      simp only
      split
      · exact .refl _
      · refine frame fun db' u hu => ?_
        obtain ⟨-, -, -, -, rfl⟩ := issueConsentTx_eq_commit hu
        exact .refl _
  | attestConsent nonce issued expires mac at_ =>
      refine frame fun db' u hu => ?_
      obtain ⟨-, -, -, -, rfl⟩ := attestConsentTx_eq_commit hu
      exact .refl _
  | clearConsentChallenge nonce issued expires now =>
      exact frame fun db' b hb => absurd (clearConsentTx_eq_ok hb) (by simp)
  | expireConsent now =>
      refine frame fun db' b hb => ?_
      rcases expireConsentTx_eq_commit hb with ⟨-, rfl⟩ | ⟨-, -, -, -, rfl⟩
      · exact .refl _
      · exact .refl _
  | invalidateConsent reason now =>
      simp only [Database.invalidateExecutionConsent]
      split
      · exact .refl _
      · refine frame fun db' b hb => ?_
        rcases invalidateConsentTx_eq_commit hb with ⟨-, rfl⟩ | ⟨-, -, -, -, rfl⟩
        · exact .refl _
        · exact .refl _
  | consumeConsent nonce issued expires mac at_ =>
      refine frame fun db' u hu => ?_
      obtain ⟨-, -, -, -, -, -, -, -, rfl⟩ := consumeConsentTx_eq_commit hu
      exact .refl _
  | event w => exact absurd rfl (hcall w)
  | requestProof requestId proofState at_ =>
      refine frame fun db' u hu => ?_
      simp only [Checked.bind_eq_ok, Checked.require_eq_ok,
        transitionExecutorRequestState_eq_ok] at hu
      obtain ⟨_, -, _, ⟨⟨found, hfound, hmay⟩, rfl⟩, hu⟩ := hu
      obtain ⟨rfl, -⟩ := TxEnd.commit.inj (Except.ok.inj hu)
      refine rowsAdvance_update fun row hrow hid => ?_
      obtain rfl := h.eq_of_find hrow hid hfound
      exact row.advances_withProof hmay at_
  | response r =>
      refine frame fun db' u hu => ?_
      simp only [Checked.bind_eq_ok, Checked.require_eq_ok, executorRequestState_eq_ok] at hu
      obtain ⟨_, -, _, ⟨found, hfound, rfl⟩, _, hmay, _, ⟨open_, hopen, hid', hnone⟩, hu⟩ := hu
      obtain ⟨rfl, -⟩ := TxEnd.commit.inj (Except.ok.inj hu)
      refine rowsAdvance_update fun row hrow hid => ?_
      obtain rfl := h.eq_of_find hopen hid' hfound
      obtain rfl := h.eq_of_find hrow hid hfound
      exact ⟨rfl, .single hmay, fun hdigest => absurd hnone hdigest, fun _ => rfl⟩
  | executorSession identity =>
      refine frame fun db' u hu => ?_
      simp only [Checked.bind_eq_ok] at hu
      obtain ⟨_, -, _, -, _, -, hu⟩ := hu
      obtain ⟨rfl, -⟩ := TxEnd.commit.inj (Except.ok.inj hu)
      exact .refl _
  | recoveryRequired message | control pause cancel | cancelUnstarted at_ | interrupted =>
      refine frame fun db' b hb => ?_
      split at hb <;> obtain ⟨rfl, -⟩ := TxEnd.commit.inj (Except.ok.inj hb) <;> exact .refl _
  | assessment r | executionError row =>
      rw [yes_snd]
      refine frame fun db' u hu => ?_
      obtain ⟨rfl, -⟩ := TxEnd.commit.inj (Except.ok.inj hu)
      exact .refl _

/-- A committed event adds its request and proves at most one. -/
theorem EventCommitted.requestsAdvance {w : EventWrite} (h : EventCommitted ctx w db db')
    (hrows : RequestInvariant db) : ∃ rows more, db'.executorRequests = rows ++ more ∧
      RowsAdvance db.executorRequests rows := by
  rw [h.effect.requests, EventWrite.requestsAfter]
  cases hproof : w.requestProof with
  | none =>
      rw [EventWrite.requestsProven, hproof, EventWrite.requestsIntended]
      exact ⟨_, _, rfl, .refl _⟩
  | some proof =>
      obtain ⟨requestId, proofState⟩ := proof
      rw [EventWrite.requestsProven, hproof, EventWrite.requestsIntended]
      refine ⟨_, _, List.map_append, rowsAdvance_update fun row hrow hid => ?_⟩
      obtain ⟨found, hfound, hmay⟩ := h.accepted.proof requestId proofState hproof
      have hold : db.executorRequests.find? (·.requestId = requestId) = some found := by
        rw [EventWrite.requestsIntended, List.find?_append] at hfound
        cases hfind : db.executorRequests.find? (·.requestId = requestId) with
        | none => exact absurd (List.find?_eq_none.1 hfind row hrow) (by simp [hid])
        | some other => simpa [hfind] using hfound
      obtain rfl := hrows.eq_of_find hrow hid hold
      exact row.advances_withProof hmay w.createdAt

/-- Every call extends the record. -/
theorem DbCall.step_extends (call : DbCall) (h : RequestInvariant db) :
    db.Extends (call.step ctx db) := by
  by_cases hcall : ∃ w, call = .event w
  · obtain ⟨w, rfl⟩ := hcall
    rcases @DbCall.event_step_cases ctx w db with heq | hw
    · rw [heq]
      exact .refl db
    · refine ⟨hw.effect.planDigest, hw.effect.journal ▸ List.prefix_append _ _,
        hw.effect.sessions ▸ List.prefix_rfl, ?_, hw.requestsAdvance h⟩
      rw [hw.effect.operations, EventWrite.operationsAfter]
      split
      · exact List.forall₂_same.2 fun op _ => .refl op
      · rw [List.forall₂_map_right_iff, List.forall₂_same]
        intro op _
        split
        · exact op.continues_afterEvent w
        · exact .refl op
  · have hframe := @DbCall.step_frame ctx call (fun w hw => hcall ⟨w, hw⟩) db
    exact ⟨hframe.planDigest, hframe.journal ▸ List.prefix_rfl, hframe.sessions,
      hframe.operations ▸ List.forall₂_same.2 fun op _ => .refl op,
      _, [], (List.append_nil _).symm, DbCall.step_requests (fun w hw => hcall ⟨w, hw⟩) h⟩

/-! ## Runs -/

/-- Whatever is called, the record extends what it was. -/
theorem extends_preserved (ctx : StoreContext) (before : Database) :
    Preserved ctx fun db => RequestInvariant db ∧ before.Extends db :=
  fun call db h => ⟨RequestInvariant.preserved ctx call db h.1, h.2.trans (call.step_extends h.1)⟩

/-- **The record only grows**, in every run of the service and whatever fails or crashes in it. What
    was proven of a request is never proven otherwise. -/
theorem record_append_only (env : Env χ) {m : Machine χ} (h : m.Initial)
    (steps later : List (MachineStep χ)) :
    (m.after env steps).world.db.Extends (m.after env (steps ++ later)).world.db ∧
      ∀ row ∈ (m.after env steps).world.db.executorRequests,
        ∃ row' ∈ (m.after env (steps ++ later)).world.db.executorRequests, row.Advances row' ∧
          (row.state = .provenApplied ∨ row.state = .provenNotStarted ∨ row.state = .ambiguous →
            row'.state = row.state ∨ row'.state = .ambiguous) := by
  have htrace := traceInvariant_after env h steps
  have hkept : Kept env true fun w : World χ => JournalInvariant env.store.codec w.db ∧
      RequestInvariant w.db ∧ (m.after env steps).world.db.Extends w.db :=
    .ofPreserved (extends_preserved env.store _)
  have hextends : (m.after env steps).world.db.Extends
      (m.after env (steps ++ later)).world.db := by
    have hrun : m.after env (steps ++ later) = (m.after env steps).after env later :=
      Run.after_append ..
    rw [hrun]
    exact (hkept.after (m := m.after env steps) ⟨htrace.journal, htrace.requests, .refl _⟩
      later).2.2
  refine ⟨hextends, fun row hrow => ?_⟩
  obtain ⟨rows, more, heq, hrows⟩ := hextends.requests
  obtain ⟨row', hrow', hadvances⟩ := Pointwise.exists_of_mem_left hrows hrow
  exact ⟨row', heq ▸ List.mem_append_left _ hrow', hadvances, hadvances.settled⟩

/-- In the sample run a request is proven applied, and stays so when the user rolls back. -/
theorem record_append_only_sample :
    ((sampleMachine.after sampleEnv sampleSteps).world.db.executorRequests.map (·.state) =
      [.provenApplied]) ∧
    (sampleMachine.after sampleEnv sampleSteps).world.db.Extends
      (sampleMachine.after sampleEnv (sampleSteps ++ [.call .rollback []])).world.db :=
  ⟨by decide +kernel, (record_append_only sampleEnv sampleMachine_initial sampleSteps _).1⟩

end Zemo
