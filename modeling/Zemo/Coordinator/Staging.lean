import Zemo.Coordinator.System
import Zemo.Plan.Emitted

set_option autoImplicit false

/-! # A stopped run strands no file

A file that goes to a staging path is out of the user's sight until its final move. The loop of
`start_execution` may stop between any two operations when the user asks it to, but not while an
operation is next that has to do with a stage. What is proved here is that this is enough: for every
plan, wherever a request arrives, a run that stops without a failure has made the final move of every
stage it made.

`Progress` says which operations of the plan are applied at a point of the loop. An event of the
loop changes the status of one operation, and the lemmas about it say how that moves the progress
on. That the operations are those of the plan when a start begins is kept over every run before
it. -/

namespace Zemo

variable {χ α : Type} {env : Env χ}

/-! ## Progress -/

/-- The stored operations are those of the plan, and the applied ones are those that were done. -/
def Progress (plan done stored : List ExecutionOperation) : Prop :=
  List.Forall₂ (fun op later => SameMove op later ∧
    (later.status.isApplied = true ↔ op.id ∈ done.map (·.id))) plan stored

/-- Every stage that is applied has a final move that is applied. -/
def NothingStranded (operations : List ExecutionOperation) : Prop :=
  ∀ stage ∈ operations, stage.kind = .internalStage → stage.status.isApplied = true →
    ∃ final ∈ operations, FinalMove stage final ∧ final.status.isApplied = true

theorem SameMove.refl (op : ExecutionOperation) : SameMove op op := ⟨rfl, rfl, rfl, rfl, rfl⟩

theorem SameMove.trans {a b c : ExecutionOperation} (h : SameMove a b) (h' : SameMove b c) :
    SameMove a c :=
  ⟨h'.id.trans h.id, h'.kind.trans h.kind, h'.source.trans h.source,
    h'.destination.trans h.destination, h'.dependencies.trans h.dependencies⟩

theorem sameMove_afterEvent (op : ExecutionOperation) (ew : EventWrite) :
    SameMove op (op.afterEvent ew) := ⟨rfl, rfl, rfl, rfl, rfl⟩

section Progress

variable {plan done stored : List ExecutionOperation} {ew : EventWrite}

theorem Progress.start (h : ∀ op ∈ plan, op.status.isApplied = false) : Progress plan [] plan := by
  unfold Progress
  rw [List.forall₂_same]
  intro op hop
  refine ⟨.refl op, ?_⟩
  rw [h op hop]
  simp

/-- What an event does to the progress when it sets the status of an operation. -/
private theorem Progress.step {done' : List ExecutionOperation} {id : OperationStepId}
    {status : ExecutionOperationStatus} (h : Progress plan done stored)
    (hstep : ew.event.stepId = some id) (hstatus : ew.operationStatus = some status)
    (hid : status.isApplied = true ↔ id ∈ done'.map (·.id))
    (hother : ∀ other, other ≠ id → (other ∈ done'.map (·.id) ↔ other ∈ done.map (·.id))) :
    Progress plan done' (ew.operationsAfter stored) := by
  rw [EventWrite.operationsAfter, hstep]
  refine List.forall₂_map_right_iff.2 (h.imp fun op later hop => ?_)
  obtain ⟨hsame, happlied⟩ := hop
  by_cases heq : later.id = id
  · rw [if_pos heq]
    refine ⟨hsame.trans (sameMove_afterEvent later ew), ?_⟩
    rw [← hsame.id, heq, ← hid]
    show (ew.operationStatus.getD later.status).isApplied = true ↔ _
    rw [hstatus]
    rfl
  · rw [if_neg heq]
    refine ⟨hsame, happlied.trans (hother op.id ?_).symm⟩
    rwa [← hsame.id]

/-- An event that applies an operation. -/
theorem Progress.applied {op : ExecutionOperation} {status : ExecutionOperationStatus}
    (h : Progress plan done stored) (hstep : ew.event.stepId = some op.id)
    (hstatus : ew.operationStatus = some status) (happlied : status.isApplied = true) :
    Progress plan (done ++ [op]) (ew.operationsAfter stored) := by
  refine h.step hstep hstatus ⟨fun _ => by simp, fun _ => happlied⟩ fun other hne => ?_
  simp only [List.map_append, List.map_cons, List.map_nil, List.mem_append, List.mem_singleton,
    hne, or_false]

/-- An event that leaves an operation that was not done in a status that is not applied. -/
theorem Progress.unapplied {op : ExecutionOperation} {status : ExecutionOperationStatus}
    (h : Progress plan done stored) (hstep : ew.event.stepId = some op.id)
    (hstatus : ew.operationStatus = some status) (hnot : status.isApplied = false)
    (hop : op.id ∉ done.map (·.id)) : Progress plan done (ew.operationsAfter stored) := by
  refine h.step hstep hstatus ⟨fun happlied => ?_, fun hmem => absurd hmem hop⟩ fun _ _ => .rfl
  rw [hnot] at happlied
  cases happlied

private theorem Progress.stored_of_mem (h : Progress plan done stored) {op : ExecutionOperation}
    (hop : op ∈ plan) : ∃ later ∈ stored, SameMove op later ∧
      (later.status.isApplied = true ↔ op.id ∈ done.map (·.id)) := by
  induction h with
  | nil => cases hop
  | cons hhead _ ih =>
      rcases List.mem_cons.1 hop with rfl | hop
      · exact ⟨_, List.mem_cons_self .., hhead⟩
      · obtain ⟨later, hlater, hrel⟩ := ih hop
        exact ⟨later, List.mem_cons_of_mem _ hlater, hrel⟩

private theorem Progress.planned_of_mem (h : Progress plan done stored) {later : ExecutionOperation}
    (hlater : later ∈ stored) : ∃ op ∈ plan, SameMove op later ∧
      (later.status.isApplied = true ↔ op.id ∈ done.map (·.id)) := by
  induction h with
  | nil => cases hlater
  | cons hhead _ ih =>
      rcases List.mem_cons.1 hlater with rfl | hlater
      · exact ⟨_, List.mem_cons_self .., hhead⟩
      · obtain ⟨op, hop, hrel⟩ := ih hlater
        exact ⟨op, List.mem_cons_of_mem _ hop, hrel⟩

/-- When each stage that is done has its final move, nothing is stranded. -/
theorem Progress.nothingStranded (h : Progress plan done stored) (hplaced : Placed done)
    (hdone : ∀ op ∈ done, op ∈ plan) (hids : (plan.map (·.id)).Nodup) : NothingStranded stored := by
  intro stage' hstage' hkind happlied
  obtain ⟨stage, hstage, hsame, hiff⟩ := h.planned_of_mem hstage'
  obtain ⟨op, hop, hid⟩ := List.mem_map.1 (hiff.1 happlied)
  -- the ids are distinct, so the stage itself is done
  obtain rfl : op = stage := List.inj_on_of_nodup_map hids (hdone op hop) hstage hid
  obtain ⟨final, hfinal, hmove⟩ := hplaced op hop (hsame.kind ▸ hkind)
  obtain ⟨final', hfinal', hsame', hiff'⟩ := h.stored_of_mem (hdone final hfinal)
  exact ⟨final', hfinal', hmove.same hsame hsame',
    hiff'.2 (List.mem_map_of_mem hfinal)⟩

end Progress

/-! ## Before the start -/

/-- As long as the execution waits or has no events, its operations are those of the plan. -/
def Unstarted (plan : List ExecutionOperation) (db : Database) : Prop :=
  db.session.status.waits = true ∨ db.journal = [] → db.operations = plan

theorem Unstarted.framed {plan : List ExecutionOperation} {db db' : Database}
    (h : Unstarted plan db) (hf : DbFrame db db') : Unstarted plan db' := by
  intro hwaits
  rw [hf.operations]
  exact h (hwaits.imp hf.waits fun hj => hf.journal ▸ hj)

/-- An event that starts the execution leaves it in a status in which it does not wait. -/
private theorem Unstarted.started {plan : List ExecutionOperation} {ew : EventWrite}
    {db db' : Database} {status : OrganizationExecutionStatus} (hw : EventEffect ew db db')
    (hstatus : ew.sessionStatus = some status) (hnot : status.waits = false) :
    Unstarted plan db' := by
  rintro (hwaits | hempty)
  · rw [hw.status, hstatus] at hwaits
    exact absurd (hnot.symm.trans hwaits) (by decide)
  · rw [hw.journal] at hempty
    simp at hempty

theorem Unstarted.kept (env : Env χ) (plan : List ExecutionOperation) :
    Kept env true fun w => JournalInvariant env.store.codec w.db ∧ Unstarted plan w.db where
  toInert := (Inert.ofPreserved (JournalInvariant.preserved env.store)).and
    (.ofRows fun _ _ _ h => h)
  rows _ h := h.1
  dispatched _ _ _ h _ := h
  write call w hcall h := by
    refine ⟨JournalInvariant.preserved env.store call _ h.1, ?_⟩
    by_cases hevent : ∃ ew, call = .event ew
    · obtain ⟨ew, rfl⟩ := hevent
      rcases @DbCall.event_step_cases env.store ew w.db with heq | hw
      · show Unstarted plan ((DbCall.event ew).step env.store w.db)
        rw [heq]
        exact h.2
      · cases (hcall ew rfl).1 with
        | plain hplain =>
            obtain ⟨s, hs, hwaiting, happroved⟩ := hplain.started
            refine .started hw.effect hs ?_
            cases s <;> first | rfl | contradiction
        | approval hkind hfirst hrequest hstep =>
            intro _
            have hempty : w.db.journal = [] := by
              rw [← List.length_eq_zero_iff, ← h.1.event_sequence hw.accepted, hfirst]
            exact (hw.effect.operations.trans (by rw [EventWrite.operationsAfter, hstep])).trans
              (h.2 (.inr hempty))
        | intent request _ _ hstarted =>
            refine .started hw.effect hstarted ?_
            unfold intentStatuses
            split <;> rfl
    · exact h.2.framed (DbCall.step_frame (fun ew heq => hevent ⟨ew, heq⟩) w.db)

/-! ## The programs of the loop -/

/-- The journal is in order, and the stored operations are as `p` says. -/
def OpsHold (env : Env χ) (p : List ExecutionOperation → Prop) (w : World χ) : Prop :=
  JournalInvariant env.store.codec w.db ∧ p w.db.operations

section Loop

variable {p p' : List ExecutionOperation → Prop} {executionId : ExecutionId}
  {op : ExecutionOperation} {cursor : JournalCursor} {plan done : List ExecutionOperation}

theorem Inert.ofOperations : Inert fun w : World χ => p w.db.operations :=
  .ofRows (I := fun db => p db.operations) fun _ _ _ h => h

theorem OpsHold.inert : Inert (OpsHold env p) :=
  (Inert.ofPreserved (JournalInvariant.preserved env.store)).and .ofOperations

theorem OpsHold.quiet : Quiet env (OpsHold env p) where
  toStill := OpsHold.inert.toStill
  quiet call w hcall h := by
    refine ⟨JournalInvariant.preserved env.store call _ h.1, ?_⟩
    show p (call.step env.store w.db).operations
    rw [(DbCall.step_frame hcall w.db).operations]
    exact h.2

/-- A program that keeps what is stored of the operations keeps what is known of them. -/
theorem OpsHold.of_keeps {m : Coordinator χ α} (h : Prog.Keeps (OpsHold env p) m) :
    Prog.Returns (OpsHold env p) m fun _ => OpsHold env p := h.triple.returns

theorem persistEvent_ops {draft : EventDraft}
    (h : ∀ now createdAt ops, p ops →
      p' ((draft.write (draft.event env.store.codec cursor now) createdAt).operationsAfter ops)) :
    Prog.Returns (OpsHold env p) (persistEvent env draft cursor) fun _ => OpsHold env p' := by
  refine (persistEvent_rows (S := fun db => p db.operations) (R := fun db => p' db.operations)
    .ofOperations .ofOperations fun now createdAt db db' hdb hw => ?_).returns
  rw [hw.effect.operations]
  exact h now createdAt db.operations hdb

theorem persistRequestIntent_ops {kind : JournalEventKind} {payload : Payload}
    {request : ExecutorRequestIdentity} {session : ExecutorSessionIdentity}
    (hid : request.operationId = op.id) (hop : op.id ∉ done.map (·.id)) :
    Prog.Returns (OpsHold env (Progress plan done))
      (persistRequestIntent env kind payload request session cursor)
      fun _ => OpsHold env (Progress plan done) := by
  refine .bind (OpsHold.of_keeps (requireValidDatabaseJournal_keeps OpsHold.inert.toStill))
    fun _ => .bind (OpsHold.of_keeps .ensure) fun _ => ?_
  refine ((commitEvent_rows (S := fun db => Progress plan done db.operations)
    (R := fun _ db => Progress plan done db.operations) .ofOperations (fun _ => .ofOperations)
    fun now createdAt db db' _ hdb hw => ?_).returns).weaken
      (fun _ hw => hw) (fun _ _ hw => ⟨hw.1.1, hw.1.2.1⟩) fun _ hw => hw
  rw [hw.effect.operations]
  refine hdb.unapplied (congrArg some hid : _ = some op.id) rfl ?_ hop
  unfold intentStatuses
  split <;> rfl

/-- The execution is in this status when its end was recorded. -/
theorem finishExecution_status {status : OrganizationExecutionStatus} {message : String} :
    Prog.Returns (OpsHold env p) (finishExecution env executionId status message cursor)
      fun _ w => OpsHold env p w ∧ w.db.session.status = status := by
  refine (persistEvent_rows (S := fun db => p db.operations)
    (R := fun db => p db.operations ∧ db.session.status = status) .ofOperations
    (.ofRows (I := fun db => p db.operations ∧ db.session.status = status) fun _ _ _ h => h)
    fun now createdAt db db' hdb hw => ?_).returns.weaken
      (fun _ hw => hw) (fun _ _ hw => ⟨⟨hw.1, hw.2.1⟩, hw.2.2⟩) fun _ hw => hw
  refine ⟨?_, hw.effect.status⟩
  rw [hw.effect.operations]
  exact hdb

theorem finishExecution_ops {status : OrganizationExecutionStatus} {message : String} :
    Prog.Returns (OpsHold env p) (finishExecution env executionId status message cursor)
      fun _ => OpsHold env p :=
  finishExecution_status.weaken (fun _ hw => hw) (fun _ _ hw => hw.1) fun _ hw => hw

/-- A failure that ends the execution leaves it failed. -/
theorem failTerminal_failed {category : ExecutionFailureCategory} {code message : String}
    {audit : Option ExecutorAttemptAudit} :
    Prog.Returns (OpsHold env p)
      (failTerminal env executionId op category code message audit cursor)
      fun detail _ => detail.session.status = .failed := by
  have hstatus : Inert fun w : World χ => w.db.session.status = .failed :=
    .ofRows (I := fun db => db.session.status = .failed) fun _ _ _ h => h
  have herror : ∀ row, Prog.Keeps (fun w : World χ => w.db.session.status = .failed)
      (write env (.executionError row)) := fun row => effect_keeps hstatus.stable fun w hw => hw
  have hfail : Prog.Returns (OpsHold env p)
      (failOperation env executionId op category code message audit cursor)
      fun _ w => w.db.session.status = .failed := by
    refine .bind (Q := fun _ => OpsHold env fun _ => True)
      (persistEvent_ops fun _ _ _ _ => trivial) fun _ => ?_
    refine .bind (finishExecution_status.weaken (fun _ hw => hw) (fun _ _ hw => hw.2)
      fun _ hw => hw) fun _ => ?_
    exact (Prog.Keeps.bind .reads fun _ => .bind (herror _) fun _ => .pure).triple.returns
  refine .bind hfail fun _ => effect_triple hstatus.stable (fun w detail hw heq => ?_)
    (fun _ _ => trivial) fun _ _ => trivial
  rw [raise_eq_ok] at heq
  rw [(Database.executionDetail_eq_ok heq).2]
  exact hw

/-- How the application of an operation may end. -/
def AppliedOrFailed (env : Env χ) (plan done : List ExecutionOperation) (op : ExecutionOperation)
    (outcome : ApplyScheduledOutcome) (w : World χ) : Prop :=
  match outcome with
  | .applied _ => OpsHold env (Progress plan (done ++ [op])) w
  | .terminal detail => detail.session.status = .failed

theorem recoverLater_never {P : World χ → Prop} {direction : ExecutorRequestDirection}
    {code detail : String} {audit : Option ExecutorAttemptAudit} {Q : α → World χ → Prop} :
    Prog.Returns P (recoverLater env executionId direction op code detail audit cursor) Q :=
  Prog.Returns.fails

theorem recoverRequestLater_never {P : World χ → Prop} {request : ExecutorRequestIdentity}
    {code detail : String} {audit : Option ExecutorAttemptAudit} {Q : α → World χ → Prop} :
    Prog.Returns P (recoverRequestLater env executionId op request code detail audit cursor) Q :=
  .bind Prog.Returns.any fun _ => recoverLater_never

theorem afterNotApplied_ops {request : ExecutorRequestIdentity} {code detail : String}
    {audit : Option ExecutorAttemptAudit}
    {looked : Except ApplicationError (Option FileFingerprint)} :
    Prog.Returns (OpsHold env p)
      (afterNotApplied env executionId op request code detail audit cursor looked)
      (AppliedOrFailed env plan done op) := by
  unfold afterNotApplied
  split
  · exact .bind (OpsHold.of_keeps (transitionProof_keeps OpsHold.quiet)) fun _ =>
      .bind failTerminal_failed fun _ => .pure fun _ hw => hw
  · exact recoverRequestLater_never
  · exact recoverLater_never

theorem afterSuccess_ops {request : ExecutorRequestIdentity} {audit : ExecutorAttemptAudit}
    {looked : Except ApplicationError (Option FileFingerprint)} :
    Prog.Returns (OpsHold env (Progress plan done))
      (afterSuccess env executionId op request audit cursor looked)
      (AppliedOrFailed env plan done op) := by
  unfold afterSuccess
  split
  · refine .bind (persistEvent_ops fun _ _ ops hops => hops.applied rfl rfl rfl) fun _ => ?_
    exact .bind (OpsHold.of_keeps (readDetail_keeps OpsHold.quiet.toStill)) fun _ =>
      .pure fun _ hw => hw
  · exact .bind Prog.Returns.any fun _ => Prog.Returns.fails

theorem afterDispatch_ops {request : ExecutorRequestIdentity}
    {dispatch : Except ApplicationError ExecutorDispatchResult} :
    Prog.Returns (OpsHold env (Progress plan done))
      (afterDispatch env executionId op request cursor dispatch)
      (AppliedOrFailed env plan done op) := by
  have hlook : ∀ {β : Type} {f : Outside → Except ApplicationError β},
      Prog.Returns (OpsHold env (Progress plan done)) (Prog.attempt (look f))
        fun _ => OpsHold env (Progress plan done) := fun {β f} =>
    OpsHold.of_keeps (attemptLook_keeps OpsHold.quiet.toStill)
  unfold afterDispatch
  split
  · exact recoverRequestLater_never
  · refine .bind (OpsHold.of_keeps (recordExecutorResponse_keeps OpsHold.quiet)) fun _ => ?_
    unfold afterOutcome
    split
    · exact .bind hlook fun _ => afterSuccess_ops
    · exact .bind hlook fun _ => afterNotApplied_ops
    · exact .bind hlook fun _ => afterNotApplied_ops
    · exact recoverLater_never

/-- An operation that is applied is done, and one that is not ends the execution as failed. -/
theorem applyScheduledOperation_ops {session : ExecutorSessionIdentity}
    (hop : op.id ∉ done.map (·.id)) :
    Prog.Returns (OpsHold env (Progress plan done))
      (applyScheduledOperation env executionId session op cursor)
      (AppliedOrFailed env plan done op) := by
  refine .bind (OpsHold.of_keeps (attemptLook_keeps OpsHold.quiet.toStill)) fun looked => ?_
  unfold applyLooked
  split
  · refine .bind (persistEvent_ops fun _ _ ops hops => hops.unapplied rfl rfl rfl hop) fun _ => ?_
    refine .bind (prepareOperation_triple OpsHold.quiet.toStill).returns fun request =>
      triple_of_pure fun hrequest => ?_
    refine .bind (persistRequestIntent_ops hrequest.1 hop) fun _ => ?_
    have hdispatch : ∀ binding, Prog.Keeps (OpsHold env (Progress plan done))
        (dispatchPrepared env request binding) := fun binding =>
      effect_keeps OpsHold.inert.stable fun w hw => hw
    exact .bind (OpsHold.of_keeps (.attempt (hdispatch _))) fun _ => afterDispatch_ops
  · exact .bind failTerminal_failed fun _ => .pure fun _ hw => hw

end Loop

/-! ## The loop -/

section Schedule

variable {plan : List ExecutionOperation} {executionId : ExecutionId}
  {session : ExecutorSessionIdentity}

/-- How the loop may end: all operations are done, it failed, or it stopped and stranded nothing. -/
def SafeEnd (env : Env χ) (plan : List ExecutionOperation) (ended : ScheduleEnd) (w : World χ) :
    Prop :=
  match ended with
  | .finished _ => OpsHold env (Progress plan (schedulable plan)) w
  | .stopped detail => detail.session.status = .failed ∨ OpsHold env NothingStranded w

/-- The loop stops only where an operation is next that has to do with no stage, or when there is no
    stage behind it. -/
theorem mayStop_of_control {done rest : List ExecutionOperation} {next : ExecutionOperation}
    {started : Bool} (hsplit : schedulable plan = done ++ next :: rest)
    (hstarted : (∃ op ∈ done, op.kind = .internalStage) → started = true)
    (hstop : ¬(started = true ∧ next.id ∈ cycleGroupIds (schedulable plan))) :
    MayStop (schedulable plan) done next := by
  rcases Bool.eq_false_or_eq_true started with htrue | hfalse
  · refine .inr fun hwaits => hstop ⟨htrue, ?_⟩
    have hnext : next ∈ schedulable plan := by simp [hsplit]
    refine List.mem_map_of_mem (List.mem_filter.2 ⟨hnext, ?_⟩)
    rw [decide_eq_true_eq]
    refine hwaits.imp id fun ⟨stage, hstage, hkind, hdepends⟩ => ?_
    refine List.any_eq_true.2 ⟨stage.id, hdepends, decide_eq_true ?_⟩
    exact List.mem_map_of_mem (List.mem_filter.2 ⟨hstage, decide_eq_true hkind⟩)
  · refine .inl fun op hop hkind => ?_
    rw [hstarted ⟨op, hop, hkind⟩] at hfalse
    cases hfalse

theorem runSchedule_safe (hids : (plan.map (·.id)).Nodup)
    (hsafe : SafeToStop (schedulable plan) (schedulable plan)) :
    ∀ {rest done : List ExecutionOperation} {s : Schedule}, schedulable plan = done ++ rest →
      ((∃ op ∈ done, op.kind = .internalStage) → s.cycleGroupStarted = true) →
      Prog.Returns (OpsHold env (Progress plan done))
        (runSchedule env executionId session (cycleGroupIds (schedulable plan)) rest s)
        (SafeEnd env plan) := by
  intro rest
  induction rest with
  | nil =>
      intro done s hsplit _
      rw [List.append_nil] at hsplit
      exact .pure fun _ hw => by rw [SafeEnd, hsplit]; exact hw
  | cons op rest ih =>
      intro done s hsplit hstarted
      have hmem : ∀ op' ∈ done ++ op :: rest, op' ∈ plan := fun op' hop' =>
        (List.mem_filter.1 (hsplit ▸ hop' : op' ∈ schedulable plan)).1
      refine .bind (OpsHold.of_keeps (query_keeps OpsHold.inert.stable)) fun control => ?_
      split
      · rename_i hcontrol
        -- the run stops here, where every stage that is done has its final move
        have hplaced : Placed done :=
          hsafe done op rest hsplit (mayStop_of_control hsplit hstarted hcontrol.2)
        refine .bind finishExecution_ops fun _ =>
          .bind (OpsHold.of_keeps (readDetail_keeps OpsHold.quiet.toStill)) fun _ =>
            .pure fun w hw => .inr ⟨hw.1, hw.2.nothingStranded hplaced ?_ hids⟩
        exact fun op' hop' => hmem op' (List.mem_append_left _ hop')
      · split
        · exact .bind failTerminal_failed fun _ => .pure fun _ hw => .inl hw
        · have hop : op.id ∉ done.map (·.id) := by
            have hnodup : ((schedulable plan).map (·.id)).Nodup :=
              hids.sublist (List.filter_sublist.map _)
            rw [hsplit, List.map_append, List.map_cons] at hnodup
            exact fun hdone => (List.nodup_append.1 hnodup).2.2 _ hdone _ (by simp) rfl
          refine .bind (applyScheduledOperation_ops hop) fun outcome => ?_
          cases outcome with
          | applied cursor =>
              refine ih (by rw [hsplit, List.append_assoc]; rfl) ?_
              rintro ⟨stage, hstage, hkind⟩
              rcases List.mem_append.1 hstage with hdone | hlast
              · simp [Schedule.after, hstarted ⟨stage, hdone, hkind⟩]
              · obtain rfl := List.mem_singleton.1 hlast
                simp [Schedule.after, hkind]
          | terminal detail => exact .pure fun _ hw => .inl hw

/-- When the start begins with the operations of the plan, it ends failed or strands nothing. -/
theorem startExecution_safe (hids : (plan.map (·.id)).Nodup)
    (hsafe : SafeToStop (schedulable plan) (schedulable plan)) (hplaced : Placed (schedulable plan))
    (hnew : ∀ op ∈ plan, op.status.isApplied = false) {time : Int} :
    Prog.Returns (fun w => JournalInvariant env.store.codec w.db ∧ Unstarted plan w.db)
      (startExecution env time)
      fun detail w => detail.session.status = .failed ∨ NothingStranded w.db.operations := by
  have hkept := Unstarted.kept env plan
  refine .bind requireApplyGate_keeps.triple.returns fun _ => ?_
  refine .bind (readDetail_triple hkept.toStill).returns fun detail => ?_
  refine Prog.Triple.weaken (P := OpsHold env fun ops => detail.session.status = .approved →
    ops = plan) ?_ (fun w hw => ⟨hw.1.1, fun happroved => hw.1.2 (.inl ?_)⟩) (fun _ _ hw => hw)
    fun _ hw => hw
  · refine .bind (OpsHold.of_keeps .ensure) fun _ => .bind (OpsHold.of_keeps
      (requireValidDatabaseJournal_keeps OpsHold.inert.toStill)) fun _ =>
      .bind (OpsHold.of_keeps (synchronizeExternalJournal_keeps OpsHold.inert)) fun _ => ?_
    refine .bind (.ensure (Q := fun _ => OpsHold env (· = plan)) (fun w hw happroved =>
      ⟨hw.1, hw.2 happroved⟩) fun _ _ _ => trivial) fun _ => ?_
    refine .bind (consumeApproval_triple OpsHold.quiet).returns fun r => ?_
    refine Prog.Triple.weaken (triple_of_pure (p := r.2.operations = plan) fun hops => ?_)
      (fun w hw => ⟨hw.1, by rw [hw.2]; exact hw.1.2⟩) (fun _ _ hw => hw) fun _ hw => hw
    refine .bind (OpsHold.of_keeps (journalCursor_keeps OpsHold.inert.toStill)) fun cursor => ?_
    rw [hops]
    refine .bind (Prog.Triple.weaken (runSchedule_safe hids hsafe (List.nil_append _).symm
      fun ⟨_, hmem, _⟩ => nomatch hmem) (fun w hw => ⟨hw.1, by rw [hw.2]; exact .start hnew⟩)
      (fun _ _ hw => hw) fun _ hw => hw) fun ended => ?_
    unfold afterSchedule
    split
    · refine .bind (OpsHold.of_keeps (readDetail_keeps OpsHold.quiet.toStill)) fun completed =>
        .bind finishExecution_ops fun _ =>
        (OpsHold.of_keeps (readDetail_keeps OpsHold.quiet.toStill)).weaken (fun _ hw => hw)
          (fun _ w hw => .inr ?_) fun _ hw => hw
      exact hw.2.nothingStranded hplaced (fun op hop => (List.mem_filter.1 hop).1) hids
    · exact .pure fun w hw => hw.imp id fun h => h.2
  · rw [hw.2] at happroved
    show w.db.session.status.waits = true
    rw [show w.db.session.status = .approved from happroved]
    rfl

end Schedule

/-- The machine that executes the exchange of two files. -/
def swapMachine : Machine (Option ExecutionDetail × Nat) where
  world :=
    { db := plannedRows swapContext
      external := { events := [], flushed := 0 }
      diagnostics := []
      outside := { sampleMachine.world.outside with tree := rootFiles swapFiles }
      executor := (none, 0)
      now := 2
      turns := []
      trace := [] }
  up := true

/-- An executor that counts its requests. -/
def countingExecutor (executor : Executor (Option ExecutionDetail)) :
    Executor (Option ExecutionDetail × Nat) where
  openSession := fun x detail authorization =>
    let (answer, detail) := executor.openSession x.1 detail authorization
    (answer, detail, x.2)
  reserve := fun x _ _ _ => (.ok (x.2 + 1, Bytes32.filled (UInt8.ofNat (x.2 + 1))), x.1, x.2 + 1)
  dispatch := fun x request binding tree =>
    let (answer, detail, after) := executor.dispatch x.1 request binding tree
    (answer, (detail, x.2), after)

def swapEnv : Env (Option ExecutionDetail × Nat) where
  store := sampleContext
  authority := sampleAuthority
  hashes := { sampleEnv.hashes with
    requestId := fun _ number _ =>
      String.ofList (List.replicate (64 - number) 'd' ++ List.replicate number 'e') }
  files := samplePolicy
  policyBinding := sampleEnv.policyBinding
  largeBatchConfirmationThreshold := 100
  gateEnabled := true
  envelopeAccepted := fun _ => true
  rollbackEnvelopeAccepted := fun _ => true
  executor := countingExecutor (sampleExecutor samplePolicy)
  iso := fun _ => "t"
  describe := fun _ => "error"

/-- The challenge for the exchange. -/
def swapChallenge : ExecutionConsentChallenge :=
  { createdChallenge with
    material := { createdChallenge.material with
      approvedOperationIds := [1, 2], approvedOperationCount := 2 } }

def swapSteps : List (MachineStep (Option ExecutionDetail × Nat)) :=
  [.call (.createChallenge none (Bytes32.filled 4) 1) [], .call (.finalize swapChallenge 2) []]

/-- The start of the exchange; the user asks for a pause when the first file is staged. -/
def swapStart : Exit ApplicationError ExecutionDetail × World (Option ExecutionDetail × Nat) :=
  startExecution swapEnv 3 { (swapMachine.after swapEnv swapSteps).world with
    turns := List.replicate 75 {} ++ [{ pause := true }] }

/-- The call returned an execution in this status. -/
def endsIn (exit : Exit ApplicationError ExecutionDetail)
    (status : OrganizationExecutionStatus) : Bool :=
  match exit with
  | .ok detail => decide (detail.session.status = status)
  | _ => false

end Zemo
