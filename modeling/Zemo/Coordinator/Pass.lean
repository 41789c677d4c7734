import Zemo.Coordinator.Calm
import Zemo.Coordinator.Verdicts

set_option autoImplicit false

/-! # One pass of recovery

How recovery goes through the requests of an execution in a calm world. `Recorded` is what one
verdict leaves, `Pass` the whole pass with the classes it found, and `Since` what a pass leaves as
it was: it only appends events about requests it recorded, moves those requests, and takes
operations out of flight. After a pass every request is settled as it was classified. -/

namespace Zemo

variable {χ : Type} {env : Env χ} {w w' : World χ}

/-! ## One request -/

/-- The world after a verdict was recorded. -/
def Recorded (env : Env χ) (w : World χ) (draft : Option EventDraft) (w' : World χ) : Prop :=
  match draft with
  | none => w' = w
  | some draft =>
      EventCommitted env.store (draft.writeIn env w.db.cursor w) w.db w'.db ∧
        w' = w.persisted env (draft.writeIn env w.db.cursor w)

theorem Recorded.calm {draft : Option EventDraft} (h : Recorded env w draft w')
    (hcalm : Calm env w) : Calm env w' := by
  cases draft with
  | none =>
      obtain rfl := h
      exact hcalm
  | some draft =>
      obtain ⟨hcommitted, rfl⟩ := h
      exact hcalm.persisted hcommitted

theorem recordVerdict_calm_eq_ok {draft : Option EventDraft} {cursor : JournalCursor}
    (h : Calm env w) (hr : recordVerdict env draft w.db.cursor w = (.ok cursor, w')) :
    Recorded env w draft w' ∧ cursor = w'.db.cursor := by
  cases draft with
  | none =>
      obtain ⟨h1, rfl⟩ := Prod.mk.inj hr
      exact ⟨rfl, (Exit.ok.inj h1).symm⟩
  | some draft =>
      obtain ⟨hcommitted, rfl⟩ := persistEvent_calm_eq_ok h hr
      have hpersist := persistEvent_calm h hcommitted.accepted
      have hcursor := Exit.ok.inj (Prod.mk.inj (hr.symm.trans hpersist)).1
      exact ⟨⟨hcommitted, rfl⟩, hcursor.trans (cursor_committed hcommitted)⟩

theorem recordVerdict_calm {draft : Option EventDraft} (h : Calm env w)
    (haccepted : ∀ d, draft = some d → EventAccepted env.store (d.writeIn env w.db.cursor w) w.db) :
    ∃ w', recordVerdict env draft w.db.cursor w = (.ok w'.db.cursor, w') ∧
      Recorded env w draft w' := by
  cases draft with
  | none => exact ⟨w, rfl, rfl⟩
  | some draft =>
      have hpersist := persistEvent_calm h (haccepted draft rfl)
      obtain ⟨hcommitted, -⟩ := persistEvent_calm_eq_ok h hpersist
      refine ⟨_, ?_, hcommitted, rfl⟩
      rw [← cursor_committed hcommitted]
      exact hpersist

section Reconcile

variable {executionId : ExecutionId} {operations : List ExecutionOperation}
  {sessions : List ExecutorSessionIdentity} {events : List OperationJournalEvent}

theorem settleVerdict_calm_eq_ok {request : ExecutorRequestRow} {op : ExecutionOperation}
    {v : RecoveryVerdict} (h : w.turns = []) :
    settleVerdict env executionId request op
        (triage env.hashes executionId request op sessions events) w = (.ok v, w') ↔
      verdictOn env w.outside.tree executionId sessions events request op = .ok v ∧ w' = w := by
  unfold verdictOn
  cases triage env.hashes executionId request op sessions events with
  | decided verdict =>
      constructor
      · intro hs
        obtain ⟨h1, rfl⟩ := Prod.mk.inj hs
        exact ⟨congrArg Except.ok (Exit.ok.inj h1), rfl⟩
      · rintro ⟨h1, rfl⟩
        obtain rfl := Except.ok.inj h1
        rfl
  | observe =>
      constructor
      · intro hs
        obtain ⟨observation, w₁, hlook, hrest⟩ := Prog.bind_eq_ok hs
        obtain ⟨hobserved, rfl⟩ := look_calm_eq_ok h hlook
        obtain ⟨h1, rfl⟩ := Prod.mk.inj hrest
        refine ⟨?_, rfl⟩
        simp only [hobserved, Except.map]
        exact congrArg Except.ok (Exit.ok.inj h1)
      · rintro ⟨h1, rfl⟩
        cases hobserved : observe env.files w'.outside.tree request op with
        | error e =>
            rw [hobserved] at h1
            cases h1
        | ok observation =>
            rw [hobserved] at h1
            obtain rfl := Except.ok.inj h1
            exact Prog.bind_ok (look_calm h hobserved)

/-- A pass over requests, with the classes it finds. -/
inductive Pass (env : Env χ) (executionId : ExecutionId) (operations : List ExecutionOperation)
    (sessions : List ExecutorSessionIdentity) (events : List OperationJournalEvent) :
    List ExecutorRequestRow → World χ → List RecoveredRequestClass → World χ → Prop where
  | nil (w : World χ) : Pass env executionId operations sessions events [] w [] w
  | cons {request : ExecutorRequestRow} {op : ExecutionOperation} {v : RecoveryVerdict}
      {rest : List ExecutorRequestRow} {classes : List RecoveredRequestClass} {w w₁ w₂ : World χ}
      (found : operations.find? (·.id = request.operationId) = some op)
      (verdict : verdictOn env w.outside.tree executionId sessions events request op = .ok v)
      (recorded : Recorded env w v.draft w₁)
      (later : Pass env executionId operations sessions events rest w₁ classes w₂) :
      Pass env executionId operations sessions events (request :: rest) w (v.found :: classes) w₂

/-- What a pass over the requests returns. -/
theorem reconcileRequests_calm_eq_ok {requests : List ExecutorRequestRow}
    {items items' : RecoveryItems} (h : Calm env w)
    (hr : reconcileRequests env executionId operations sessions events requests w.db.cursor items w
      = (.ok items', w')) :
    ∃ classes, Pass env executionId operations sessions events requests w classes w' ∧
      items' = classes.foldl RecoveryItems.add items ∧ Calm env w' := by
  induction requests generalizing w items with
  | nil =>
      obtain ⟨h1, rfl⟩ := Prod.mk.inj hr
      exact ⟨[], .nil w, (Exit.ok.inj h1).symm, h⟩
  | cons request rest ih =>
      obtain ⟨op, w₁, hfound, hr⟩ := Prog.bind_eq_ok hr
      cases hop : operations.find? (·.id = request.operationId) with
      | none =>
          rw [hop] at hfound
          cases (Prod.mk.inj hfound).1
      | some op' =>
          rw [hop] at hfound
          obtain ⟨h1, rfl⟩ := Prod.mk.inj hfound
          obtain rfl := Exit.ok.inj h1
          obtain ⟨found, w₁, hone, hr⟩ := Prog.bind_eq_ok hr
          obtain ⟨v, w₂, hsettle, hone⟩ := Prog.bind_eq_ok hone
          obtain ⟨hverdict, rfl⟩ := (settleVerdict_calm_eq_ok h.turns).1 hsettle
          obtain ⟨cursor, w₃, hrecord, hone⟩ := Prog.bind_eq_ok hone
          obtain ⟨hrecorded, rfl⟩ := recordVerdict_calm_eq_ok h hrecord
          obtain ⟨h2, rfl⟩ := Prod.mk.inj hone
          obtain rfl := Exit.ok.inj h2
          obtain ⟨classes, hpass, hitems, hcalm⟩ := ih (hrecorded.calm h) hr
          exact ⟨v.found :: classes, .cons hop hverdict hrecorded hpass, hitems, hcalm⟩

end Reconcile

/-! ## What a pass leaves as it was -/

/-- The status of an operation that is not in flight. -/
def Landed (status : ExecutionOperationStatus) : Prop :=
  ∀ direction, operationInterrupted status direction = false

/-- From `w` to `w'` verdicts on these requests were recorded, and nothing else was. -/
structure Since (done : List ExecutorRequestRow) (w w' : World χ) : Prop where
  journal : ∃ news, w'.db.journal = w.db.journal ++ news ∧ ∀ event ∈ news,
    (∀ direction : ExecutorRequestDirection, event.kind ≠ direction.intentKind) ∧
      ∃ request ∈ done, event.payload.requestId = some request.requestId ∧
        event.stepId = some request.operationId
  requests : ∃ f : ExecutorRequestRow → ExecutorRequestRow,
    w'.db.executorRequests = w.db.executorRequests.map f ∧ ∀ row, (f row).atIntent = row.atIntent ∧
      ((∀ request ∈ done, request.requestId ≠ row.requestId) → f row = row)
  operations : ∃ g : ExecutionOperation → ExecutionOperation,
    w'.db.operations = w.db.operations.map g ∧ ∀ op, (g op).id = op.id ∧
      ((g op).status = op.status ∨ Landed (g op).status) ∧
        ((∀ request ∈ done, request.operationId ≠ op.id) → g op = op)
  sessions : w'.db.executorSessions = w.db.executorSessions
  consent : w'.db.consent = w.db.consent
  id : w'.db.session.id = w.db.session.id
  rootId : w'.db.session.rootId = w.db.session.rootId
  outside : w'.outside = w.outside
  now : w'.now = w.now
  diagnostics : w'.diagnostics = w.diagnostics

theorem Since.refl (w : World χ) : Since [] w w where
  journal := ⟨[], (List.append_nil _).symm, by simp⟩
  requests := ⟨fun row => row, (List.map_id' _).symm, fun _ => ⟨rfl, fun _ => rfl⟩⟩
  operations := ⟨fun op => op, (List.map_id' _).symm, fun _ => ⟨rfl, .inl rfl, fun _ => rfl⟩⟩
  sessions := rfl
  consent := rfl
  id := rfl
  rootId := rfl
  outside := rfl
  now := rfl
  diagnostics := rfl

theorem Since.trans {done done' : List ExecutorRequestRow} {u : World χ} (h : Since done w w')
    (h' : Since done' w' u) : Since (done ++ done') w u := by
  obtain ⟨news, hjournal, hnews⟩ := h.journal
  obtain ⟨news', hjournal', hnews'⟩ := h'.journal
  obtain ⟨f, hrows, hf⟩ := h.requests
  obtain ⟨f', hrows', hf'⟩ := h'.requests
  obtain ⟨g, hops, hg⟩ := h.operations
  obtain ⟨g', hops', hg'⟩ := h'.operations
  refine
    { journal := ⟨news ++ news', by rw [hjournal', hjournal, List.append_assoc], ?_⟩
      requests := ⟨f' ∘ f, by rw [hrows', hrows, List.map_map], fun row => ⟨?_, fun hno => ?_⟩⟩
      operations := ⟨g' ∘ g, by rw [hops', hops, List.map_map], fun op => ⟨?_, ?_, fun hno => ?_⟩⟩
      sessions := h'.sessions.trans h.sessions
      consent := h'.consent.trans h.consent
      id := h'.id.trans h.id
      rootId := h'.rootId.trans h.rootId
      outside := h'.outside.trans h.outside
      now := h'.now.trans h.now
      diagnostics := h'.diagnostics.trans h.diagnostics }
  · intro event hmem
    rcases List.mem_append.1 hmem with hmem | hmem
    · obtain ⟨hkind, request, hdone, hpayload⟩ := hnews event hmem
      exact ⟨hkind, request, List.mem_append_left _ hdone, hpayload⟩
    · obtain ⟨hkind, request, hdone, hpayload⟩ := hnews' event hmem
      exact ⟨hkind, request, List.mem_append_right _ hdone, hpayload⟩
  · exact (hf' (f row)).1.trans (hf row).1
  · have hfix : f row = row := (hf row).2 fun r hr => hno r (List.mem_append_left _ hr)
    show f' (f row) = row
    rw [hfix]
    exact (hf' row).2 fun r hr => hno r (List.mem_append_right _ hr)
  · exact (hg' (g op)).1.trans (hg op).1
  · rcases (hg' (g op)).2.1 with hsame | hlanded
    · rcases (hg op).2.1 with hsame' | hlanded'
      · exact .inl (hsame.trans hsame')
      · refine .inr ?_
        show Landed (g' (g op)).status
        rwa [hsame]
    · exact .inr hlanded
  · have hfix : g op = op := (hg op).2.2 fun r hr => hno r (List.mem_append_left _ hr)
    show g' (g op) = op
    rw [hfix]
    exact (hg' op).2.2 fun r hr => hno r (List.mem_append_right _ hr)

/-- An update of one request, as a map of rows. -/
theorem requestsProven_eq {ew : EventWrite} {requestId : String} {state : ExecutorRequestState}
    (h : ew.requestProof = some (requestId, state)) (rows : List ExecutorRequestRow) :
    ew.requestsProven rows = rows.map fun row =>
      if row.requestId = requestId then row.withProof state ew.createdAt else row := by
  rw [EventWrite.requestsProven, h]

section Record

variable {executionId : ExecutionId} {request : ExecutorRequestRow} {op : ExecutionOperation}
  {draft : EventDraft} {s : Standing}

/-- The rows of the requests after a verdict on one was recorded. -/
theorem RecoveryDraft.requests_eq (hd : RecoveryDraft executionId request op draft s)
    (h : Recorded env w (some draft) w') :
    w'.db.executorRequests = w.db.executorRequests.map fun row =>
      if row.requestId = request.requestId then row.withProof s.proofState (env.iso w.now)
      else row := by
  have hintent : (draft.writeIn env w.db.cursor w).requestIntent = none := hd.noIntent
  have hproof : (draft.writeIn env w.db.cursor w).requestProof
      = some (request.requestId, s.proofState) := hd.proof_eq
  rw [h.1.effect.requests, EventWrite.requestsAfter, EventWrite.requestsIntended, hintent,
    Option.map_none, Option.toList_none, List.append_nil, requestsProven_eq hproof]
  rfl

/-- The operations after a verdict was recorded. -/
theorem RecoveryDraft.operations_eq (hd : RecoveryDraft executionId request op draft s)
    (h : Recorded env w (some draft) w') :
    w'.db.operations = w.db.operations.map fun stored =>
      if stored.id = op.id then stored.afterEvent (draft.writeIn env w.db.cursor w)
      else stored := by
  have hstep : (draft.writeIn env w.db.cursor w).event.stepId = some op.id := hd.stepId_eq
  rw [h.1.effect.operations, EventWrite.operationsAfter, hstep]

/-- The status of an operation after a verdict on a request of it. -/
theorem RecoveryDraft.status_after (hd : RecoveryDraft executionId request op draft s)
    (stored : ExecutionOperation) :
    (stored.afterEvent (draft.writeIn env w.db.cursor w)).status
      = (s.landing request.direction).getD stored.status :=
  congrArg (fun status => Option.getD status stored.status) hd.operationStatus_eq

theorem RecoveryDraft.since (hd : RecoveryDraft executionId request op draft s)
    (hop : op.id = request.operationId) (h : Recorded env w (some draft) w') :
    Since [request] w w' := by
  obtain ⟨hcommitted, heq⟩ := h
  refine
    { journal := ⟨[(draft.writeIn env w.db.cursor w).event], hcommitted.effect.journal, ?_⟩
      requests := ⟨_, hd.requests_eq ⟨hcommitted, heq⟩, fun row => ⟨?_, fun hno => ?_⟩⟩
      operations := ⟨_, hd.operations_eq ⟨hcommitted, heq⟩, fun stored =>
        ⟨?_, ?_, fun hno => ?_⟩⟩
      sessions := hcommitted.effect.sessions
      consent := hcommitted.effect.consent
      id := hcommitted.effect.id
      rootId := hcommitted.effect.rootId
      outside := by rw [heq]; rfl
      now := by rw [heq]; rfl
      diagnostics := by rw [heq]; rfl }
  · intro event hmem
    obtain rfl := List.mem_singleton.1 hmem
    exact ⟨hd.kind_ne, request, List.mem_singleton_self _, hd.observes.2,
      hd.stepId_eq.trans (congrArg some hop)⟩
  · split <;> rfl
  · exact if_neg fun heq => hno request (List.mem_singleton_self _) heq.symm
  · split <;> rfl
  · split
    · rw [hd.status_after stored]
      cases hs : s.landing request.direction with
      | none => exact .inl rfl
      | some status => exact .inr fun _ => Standing.landing_not_interrupted hs
    · exact .inl rfl
  · exact if_neg fun heq => hno request (List.mem_singleton_self _) (hop.symm.trans heq.symm)

end Record

/-! ## Settled requests -/

/-- The stored request with this id is settled. -/
def SettledIn (env : Env χ) (w : World χ) (request : ExecutorRequestRow) (s : Standing) : Prop :=
  ∀ row ∈ w.db.executorRequests, row.requestId = request.requestId →
    ∀ op ∈ w.db.operations, op.id = row.operationId →
      Settled env.hashes w.db.executorSessions w.db.journal row op s

theorem requestId_of_atIntent {row later : ExecutorRequestRow} (h : later.atIntent = row.atIntent) :
    later.requestId = row.requestId :=
  congrArg (·.requestId) h

theorem operationId_of_atIntent {row later : ExecutorRequestRow}
    (h : later.atIntent = row.atIntent) : later.operationId = row.operationId :=
  congrArg (·.operationId) h

theorem direction_of_atIntent {row later : ExecutorRequestRow} (h : later.atIntent = row.atIntent) :
    later.direction = row.direction :=
  congrArg (·.direction) h

/-- Observations of other requests do not count. -/
theorem hasObservation_append {events news : List OperationJournalEvent} {requestId : String}
    (h : ∀ event ∈ news, event.payload.requestId ≠ some requestId) :
    requestHasRecoveryObservation (events ++ news) requestId
      = requestHasRecoveryObservation events requestId := by
  have hnone : (news.any fun event => event.payload.event = "recovery_observed"
      && event.payload.requestId = some requestId) = false := by
    rw [List.any_eq_false]
    intro event hmem
    simp [h event hmem]
  rw [requestHasRecoveryObservation, List.any_append, hnone, Bool.or_false]
  rfl

/-- A settled request stays settled when verdicts on others are recorded. -/
theorem SettledIn.since {request : ExecutorRequestRow} {s : Standing}
    {done : List ExecutorRequestRow} (h : SettledIn env w request s) (hsince : Since done w w')
    (hother : ∀ r ∈ done, r.requestId ≠ request.requestId) : SettledIn env w' request s := by
  obtain ⟨news, hjournal, hnews⟩ := hsince.journal
  obtain ⟨f, hrows, hf⟩ := hsince.requests
  obtain ⟨g, hops, hg⟩ := hsince.operations
  intro later hlater hid op' hop' hopId
  rw [hrows] at hlater
  rw [hops] at hop'
  obtain ⟨row, hrow, rfl⟩ := List.mem_map.1 hlater
  obtain ⟨op, hop, rfl⟩ := List.mem_map.1 hop'
  have hrowId : row.requestId = request.requestId :=
    (requestId_of_atIntent (hf row).1).symm.trans hid
  have hfix : f row = row := (hf row).2 fun r hr => by
    rw [hrowId]
    exact hother r hr
  rw [hfix] at hopId ⊢
  have hsettled := h row hrow hrowId op hop ((hg op).1.symm.trans hopId)
  rw [hjournal, hsince.sessions]
  refine hsettled.later (bound_append rfl fun event hmem => (hnews event hmem).1 _)
    (hasObservation_append fun event hmem => ?_) rfl rfl fun hflight => ?_
  · obtain ⟨-, r, hr, hpayload, -⟩ := hnews event hmem
    rw [hpayload, hrowId]
    exact fun heq => hother r hr (Option.some.inj heq)
  · rcases (hg op).2.1 with hsame | hlanded
    · rwa [hsame] at hflight
    · rw [hlanded] at hflight
      cases hflight

/-- Distinct ids, as a pass needs them. -/
structure Keyed (db : Database) : Prop where
  operations : (db.operations.map (·.id)).Nodup
  requests : (db.executorRequests.map (·.requestId)).Nodup

theorem RequestInvariant.keyed {db : Database} (h : RequestInvariant db) : Keyed db where
  operations := h.operationIds
  requests := by
    have hids := h.requestIds
    rwa [Database.intendedRequests, List.map_map] at hids

theorem eq_of_mem_of_key {α κ : Type} {key : α → κ} {l : List α} (h : (l.map key).Nodup)
    {a b : α} (ha : a ∈ l) (hb : b ∈ l) (heq : key a = key b) : a = b :=
  List.inj_on_of_nodup_map h ha hb heq

theorem mem_of_find_id {operations : List ExecutionOperation} {id : OperationStepId}
    {op : ExecutionOperation} (h : operations.find? (·.id = id) = some op) :
    op ∈ operations ∧ op.id = id :=
  ⟨List.mem_of_find?_eq_some h, by simpa using List.find?_some h⟩

/-- Recording a verdict settles its request with the standing of the verdict. The verdict was found
    from the rows of `w₀`, since when only verdicts on other requests were recorded. -/
theorem Recorded.settledIn {w₀ w₁ : World χ} {done : List ExecutorRequestRow}
    {request : ExecutorRequestRow} {op : ExecutionOperation} {executionId : ExecutionId}
    {tree : Tree} {v : RecoveryVerdict} (hkeyed : Keyed w₀.db) (hsince : Since done w₀ w)
    (hother : ∀ r ∈ done, r.requestId ≠ request.requestId)
    (hrequest : request ∈ w₀.db.executorRequests)
    (hop : w₀.db.operations.find? (·.id = request.operationId) = some op)
    (hverdict : verdictOn env tree executionId w₀.db.executorSessions w₀.db.journal request op
      = .ok v) (hrecorded : Recorded env w v.draft w₁) :
    SettledIn env w₁ request v.found.standing ∧ ∃ more, Since more w w₁ ∧
      ∀ r ∈ more, r = request := by
  obtain ⟨hcases, -⟩ := verdictOn_cases hverdict
  obtain ⟨hopMem, hopId⟩ := mem_of_find_id hop
  cases hdraft : v.draft with
  | none =>
      rw [hdraft] at hrecorded
      obtain rfl := hrecorded
      refine ⟨?_, [], .refl _, by simp⟩
      -- the verdict was already decided by what is stored
      have hsettled : Settled env.hashes w₀.db.executorSessions w₀.db.journal request op
          v.found.standing := by
        cases hcases with
        | settled h _ => exact h
        | seen observation _ _ heq =>
            obtain ⟨d, hd⟩ := @observedVerdict_draft request op executionId observation
            rw [heq, hd] at hdraft
            cases hdraft
      refine SettledIn.since (w := w₀) ?_ hsince hother
      intro row hrow hid stored hstored hstoredId
      obtain rfl := eq_of_mem_of_key hkeyed.requests hrow hrequest hid
      obtain rfl := eq_of_mem_of_key hkeyed.operations hstored hopMem (hstoredId.trans hopId.symm)
      exact hsettled
  | some draft =>
      rw [hdraft] at hrecorded
      have hd := hcases.recoveryDraft hdraft
      have hmore := hd.since hopId hrecorded
      refine ⟨?_, [request], hmore, by simp⟩
      obtain ⟨news, hjournal, hnews⟩ := (hsince.trans hmore).journal
      intro later hlater hid stored hstored hstoredId
      rw [hd.requests_eq hrecorded] at hlater
      obtain ⟨row, hrow, rfl⟩ := List.mem_map.1 hlater
      rw [hd.operations_eq hrecorded] at hstored
      obtain ⟨before, hbefore, rfl⟩ := List.mem_map.1 hstored
      have hrowId : row.requestId = request.requestId := by
        split at hid <;> exact hid
      rw [if_pos hrowId] at hstoredId ⊢
      -- the row is the request itself, which nothing changed since `w₀`
      obtain ⟨f, hrows, hf⟩ := hsince.requests
      rw [hrows] at hrow
      obtain ⟨row₀, hrow₀, rfl⟩ := List.mem_map.1 hrow
      have hrow₀Id : row₀.requestId = request.requestId :=
        (requestId_of_atIntent (hf row₀).1).symm.trans hrowId
      obtain rfl := eq_of_mem_of_key hkeyed.requests hrow₀ hrequest hrow₀Id
      rw [(hf row₀).2 hother] at hstoredId ⊢
      have hbeforeId : before.id = op.id := by
        have hid' : before.id = row₀.operationId := by
          split at hstoredId <;> exact hstoredId
        exact hid'.trans hopId.symm
      rw [if_pos hbeforeId]
      rw [hjournal, (hsince.trans hmore).sessions]
      refine RecoveryDraft.settles hd (fun hne => ?_) ?_ rfl fun hne => ?_
      · have hlater : (row₀.withProof v.found.standing.proofState (env.iso w.now)).atIntent
            = row₀.atIntent := rfl
        refine (bound_append hlater fun event hmem => (hnews event hmem).1 _).2 ?_
        cases hcases with
        | settled h hquiet =>
            rcases hquiet with hnone | ⟨code, reason, rfl⟩
            · rw [hnone] at hdraft
              cases hdraft
            · exact absurd rfl hne
        | seen observation h _ _ => exact h.1
      · rw [← hjournal, hrecorded.1.effect.journal, requestHasRecoveryObservation, List.any_append]
        have hnew : (draft.writeIn env w.db.cursor w).event.payload.event = "recovery_observed" ∧
            (draft.writeIn env w.db.cursor w).event.payload.requestId = some row₀.requestId :=
          hd.observes
        simp [hnew, ExecutorRequestRow.withProof]
      · rw [hd.status_after before]
        cases hs : v.found.standing.landing row₀.direction with
        | some status => exact Standing.landing_not_interrupted hs
        | none =>
            cases hst : v.found.standing with
            | ambiguous => exact absurd hst hne
            | skipped => exact absurd hst hd.standing_ne
            | applied => rw [hst] at hs; cases hs
            | notStarted => rw [hst] at hs; cases hs

/-! ## The whole pass -/

/-- The request moves to the state its verdict proves, where the verdict is recorded. -/
def RecoveryVerdict.Sound (request : ExecutorRequestRow) (v : RecoveryVerdict) : Prop :=
  v.draft ≠ none → request.state.mayTransitionTo v.found.standing.proofState = true

/-- A request no verdict was recorded on is found as it was. -/
theorem Since.find_request {w₀ : World χ} {done : List ExecutorRequestRow}
    {request : ExecutorRequestRow} (h : Since done w₀ w) (hkeyed : Keyed w₀.db)
    (hrequest : request ∈ w₀.db.executorRequests)
    (hother : ∀ r ∈ done, r.requestId ≠ request.requestId) :
    w.db.executorRequests.find? (·.requestId = request.requestId) = some request := by
  obtain ⟨f, hrows, hf⟩ := h.requests
  have hmem : request ∈ w.db.executorRequests := by
    rw [hrows]
    exact List.mem_map.2 ⟨request, hrequest, (hf request).2 hother⟩
  obtain ⟨row, hrow⟩ : ∃ row,
      w.db.executorRequests.find? (·.requestId = request.requestId) = some row := by
    rw [← Option.isSome_iff_exists, List.find?_isSome]
    exact ⟨request, hmem, by simp⟩
  have hid : row.requestId = request.requestId := by simpa using List.find?_some hrow
  have hrowMem := List.mem_of_find?_eq_some hrow
  rw [hrows] at hrowMem
  obtain ⟨row₀, hrow₀, rfl⟩ := List.mem_map.1 hrowMem
  obtain rfl := eq_of_mem_of_key hkeyed.requests hrow₀ hrequest
    ((requestId_of_atIntent (hf row₀).1).symm.trans hid)
  rw [hrow, (hf row₀).2 hother]

/-- The operations keep their ids. -/
theorem Since.exists_op {w₀ : World χ} {done : List ExecutorRequestRow} (h : Since done w₀ w)
    {op : ExecutionOperation} (hop : op ∈ w₀.db.operations) :
    ∃ stored ∈ w.db.operations, stored.id = op.id := by
  obtain ⟨g, hops, hg⟩ := h.operations
  rw [hops]
  exact ⟨g op, List.mem_map_of_mem hop, (hg op).1⟩

section Whole

variable {executionId : ExecutionId} {w₀ : World χ} {done : List ExecutorRequestRow}
  {requests : List ExecutorRequestRow} {classes : List RecoveredRequestClass}

/-- What a pass found of a request. -/
structure ClassOf (env : Env χ) (w : World χ) (request : ExecutorRequestRow)
    (c : RecoveredRequestClass) : Prop where
  settled : SettledIn env w request c.standing
  about : ∀ item ∈ c.item,
    item.operationId = request.operationId ∧ item.direction = request.direction

/-- A pass over stored requests settles each of them as it classified it, and nothing else changes.
    The hypotheses say that the pass uses what `w₀` stored, and has not come to these requests. -/
theorem Pass.classified (hkeyed : Keyed w₀.db) (hsince : Since done w₀ w)
    (hrequests : ∀ r ∈ requests, r ∈ w₀.db.executorRequests)
    (hnodup : (requests.map (·.requestId)).Nodup)
    (hother : ∀ r ∈ requests, ∀ d ∈ done, d.requestId ≠ r.requestId)
    (hpass : Pass env executionId w₀.db.operations w₀.db.executorSessions w₀.db.journal requests w
      classes w') :
    List.Forall₂ (ClassOf env w') requests classes ∧
      ∃ more, Since more w w' ∧ ∀ r ∈ more, r ∈ requests := by
  induction hpass generalizing done with
  | nil w => exact ⟨.nil, [], .refl w, by simp⟩
  | @cons request op v rest classes w w₁ w₂ found verdict recorded later ih =>
      rw [List.map_cons, List.nodup_cons] at hnodup
      have hmem := hrequests request (List.mem_cons_self ..)
      obtain ⟨hsettled, more, hmore, hown⟩ := recorded.settledIn hkeyed hsince
        (hother request (List.mem_cons_self ..)) hmem found verdict
      have hne : ∀ r ∈ rest, r.requestId ≠ request.requestId := fun r hr heq =>
        hnodup.1 (heq ▸ List.mem_map_of_mem hr)
      obtain ⟨hclasses, rest', hrest, hrestMem⟩ := ih (hsince.trans hmore)
        (fun r hr => hrequests r (List.mem_cons_of_mem _ hr)) hnodup.2 (fun r hr d hd => by
          rcases List.mem_append.1 hd with hd | hd
          · exact hother r (List.mem_cons_of_mem _ hr) d hd
          · rw [hown d hd]
            exact (hne r hr).symm)
      refine ⟨.cons ⟨hsettled.since hrest fun r hr => hne r (hrestMem r hr), fun item hitem => ?_⟩
        hclasses, more ++ rest', hmore.trans hrest, fun r hr => ?_⟩
      · obtain ⟨hop, hdir⟩ := (verdictOn_cases verdict).2 item hitem
        exact ⟨hop.trans (mem_of_find_id found).2, hdir⟩
      · rcases List.mem_append.1 hr with hr | hr
        · rw [hown r hr]
          exact List.mem_cons_self ..
        · exact List.mem_cons_of_mem _ (hrestMem r hr)

/-- A pass found a sound verdict on each request. -/
theorem Pass.sound (hkeyed : Keyed w₀.db) (hsince : Since done w₀ w)
    (hrequests : ∀ r ∈ requests, r ∈ w₀.db.executorRequests)
    (hnodup : (requests.map (·.requestId)).Nodup)
    (hother : ∀ r ∈ requests, ∀ d ∈ done, d.requestId ≠ r.requestId)
    (hpass : Pass env executionId w₀.db.operations w₀.db.executorSessions w₀.db.journal requests w
      classes w') :
    List.Forall₂ (fun request c => ∃ op v,
      w₀.db.operations.find? (·.id = request.operationId) = some op ∧
      verdictOn env w₀.outside.tree executionId w₀.db.executorSessions w₀.db.journal request op
        = .ok v ∧ v.Sound request ∧ c = v.found) requests classes := by
  induction hpass generalizing done with
  | nil w => exact .nil
  | @cons request op v rest classes w w₁ w₂ found verdict recorded later ih =>
      rw [List.map_cons, List.nodup_cons] at hnodup
      have hmem := hrequests request (List.mem_cons_self ..)
      have hown := hother request (List.mem_cons_self ..)
      obtain ⟨-, more, hmore, hmoreOwn⟩ :=
        recorded.settledIn hkeyed hsince hown hmem found verdict
      refine .cons ⟨op, v, found, ?_, ?_, rfl⟩ (ih (hsince.trans hmore)
        (fun r hr => hrequests r (List.mem_cons_of_mem _ hr)) hnodup.2 fun r hr d hd => ?_)
      · rwa [hsince.outside] at verdict
      · -- the transaction saw the request as it was
        intro hdraft
        obtain ⟨draft, hsome⟩ := Option.ne_none_iff_exists'.1 hdraft
        rw [hsome] at recorded
        have hd := (verdictOn_cases verdict).1.recoveryDraft hsome
        have hproof : (draft.writeIn env w.db.cursor w).requestProof
            = some (request.requestId, v.found.standing.proofState) := hd.proof_eq
        have hintent : (draft.writeIn env w.db.cursor w).requestIntent = none := hd.noIntent
        obtain ⟨row, hrow, hmay⟩ := recorded.1.accepted.proof _ _ hproof
        rw [EventWrite.requestsIntended, hintent, Option.map_none, Option.toList_none,
          List.append_nil, hsince.find_request hkeyed hmem hown] at hrow
        obtain rfl := Option.some.inj hrow
        exact hmay
      · rcases List.mem_append.1 hd with hd | hd
        · exact hother r (List.mem_cons_of_mem _ hr) d hd
        · rw [hmoreOwn d hd]
          exact fun heq => hnodup.1 (heq ▸ List.mem_map_of_mem hr)

/-- With a sound verdict on each request the pass returns. -/
theorem reconcileRequests_calm {items : RecoveryItems} (hcalm : Calm env w)
    (hkeyed : Keyed w₀.db) (hsince : Since done w₀ w)
    (hrequests : ∀ r ∈ requests, r ∈ w₀.db.executorRequests)
    (hnodup : (requests.map (·.requestId)).Nodup)
    (hother : ∀ r ∈ requests, ∀ d ∈ done, d.requestId ≠ r.requestId)
    (hsound : ∀ request ∈ requests, ∃ op v,
      w₀.db.operations.find? (·.id = request.operationId) = some op ∧
      verdictOn env w₀.outside.tree w₀.db.session.id w₀.db.executorSessions w₀.db.journal request op
        = .ok v ∧ v.Sound request) :
    ∃ items' w', reconcileRequests env w₀.db.session.id w₀.db.operations w₀.db.executorSessions
      w₀.db.journal requests w.db.cursor items w = (.ok items', w') := by
  induction requests generalizing w done items with
  | nil => exact ⟨items, w, rfl⟩
  | cons request rest ih =>
      rw [List.map_cons, List.nodup_cons] at hnodup
      obtain ⟨op, v, hfound, hverdict, hmay⟩ := hsound request (List.mem_cons_self ..)
      have hmem := hrequests request (List.mem_cons_self ..)
      have hown := hother request (List.mem_cons_self ..)
      have hcases := (verdictOn_cases hverdict).1
      obtain ⟨w₁, hrecord, hrecorded⟩ := @recordVerdict_calm _ _ _ v.draft hcalm
        fun draft hsome => by
          have hd := hcases.recoveryDraft hsome
          refine EventDraft.accepted hcalm.journal (hd.executionId_eq.trans hsince.id.symm)
            (fun stepId hstep => ?_) hd.noIntent fun requestId proofState hproof => ?_
          · rw [hd.stepId_eq] at hstep
            obtain rfl := Option.some.inj hstep
            exact hsince.exists_op (mem_of_find_id hfound).1
          · rw [hd.proof_eq] at hproof
            obtain ⟨rfl, rfl⟩ := Prod.mk.inj (Option.some.inj hproof)
            exact ⟨request, hsince.find_request hkeyed hmem hown, hmay (by simp [hsome])⟩
      obtain ⟨-, more, hmore, hmoreOwn⟩ :=
        hrecorded.settledIn hkeyed hsince hown hmem hfound hverdict
      obtain ⟨items', w', hrest⟩ := @ih w₁ _ (items.add v.found) (hrecorded.calm hcalm)
        (hsince.trans hmore)
        (fun r hr => hrequests r (List.mem_cons_of_mem _ hr)) hnodup.2 (fun r hr d hd => by
          rcases List.mem_append.1 hd with hd | hd
          · exact hother r (List.mem_cons_of_mem _ hr) d hd
          · rw [hmoreOwn d hd]
            exact fun heq => hnodup.1 (heq ▸ List.mem_map_of_mem hr))
        (fun r hr => hsound r (List.mem_cons_of_mem _ hr))
      refine ⟨items', w', ?_⟩
      rw [← hsince.outside] at hverdict
      have hsettle := (settleVerdict_calm_eq_ok hcalm.turns).2 ⟨hverdict, Eq.refl w⟩
      have hone : reconcileOneInterruptedRequest env w₀.db.session.id request op
          w₀.db.executorSessions w₀.db.journal w.db.cursor w = (.ok (v.found, w₁.db.cursor), w₁) :=
        (Prog.bind_ok hsettle).trans (Prog.bind_ok hrecord)
      have hop : (Prog.orFail (w₀.db.operations.find? (·.id = request.operationId))
          ApplicationError.invalidExecution : Coordinator χ ExecutionOperation) w = (.ok op, w) := by
        rw [hfound]
        rfl
      exact (Prog.bind_ok hop).trans ((Prog.bind_ok hone).trans hrest)

end Whole

end Zemo
