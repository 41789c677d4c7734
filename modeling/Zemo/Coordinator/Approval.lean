import Zemo.Coordinator.System

set_option autoImplicit false

/-! # The approval at the start of the journal

An execution is approved in two steps: the attestation, and the event that starts its journal. The
second may be missing after a crash, and a start does not look for it. The file shows that the
journal of every executed plan starts with its approval in the runs in which no start meets an
approved execution without a journal, and that it does not in a run in which one does. -/

namespace Zemo

variable {χ : Type}

/-! ## The approval -/

/-- The journal starts with the approval of the execution. -/
def StartsApproved (db : Database) : Prop :=
  ∃ first rest, db.journal = first :: rest ∧ first.kind = .approvedDurable ∧ first.sequence = 0 ∧
    first.executionId = db.session.id

/-- An executed plan starts with its approval. -/
def ExecutedAfterApproval (db : Database) : Prop :=
  (∃ event ∈ db.journal, event.kind = .intentDurable) → StartsApproved db

variable {ctx : StoreContext} {codec : Codec} {db db' : Database}

theorem StartsApproved.framed (h : StartsApproved db) (hf : DbFrame db db') :
    StartsApproved db' := by
  obtain ⟨first, rest, hjournal, hkind, hseq, hid⟩ := h
  exact ⟨first, rest, hf.journal.trans hjournal, hkind, hseq, hid.trans hf.id.symm⟩

theorem StartsApproved.committed {w : EventWrite} (h : StartsApproved db)
    (hw : EventCommitted ctx w db db') : StartsApproved db' := by
  obtain ⟨first, rest, hjournal, hkind, hseq, hid⟩ := h
  refine ⟨first, rest ++ [w.event], ?_, hkind, hseq, hid.trans hw.effect.id.symm⟩
  rw [hw.effect.journal, hjournal, List.cons_append]

theorem StartsApproved.preserved (ctx : StoreContext) : Preserved ctx StartsApproved :=
  preserved_of (fun _ _ hf h => h.framed hf) fun _ _ _ hw h => h.committed hw

/-- While an execution waits, its journal is empty or starts with the approval; and no forward
    intent is there without the approval. -/
structure ApprovalInvariant (codec : Codec) (db : Database) : Prop where
  journal : JournalInvariant codec db
  waiting : db.session.status.waits = true → db.journal = [] ∨ StartsApproved db
  executed : ExecutedAfterApproval db

theorem PreparedRows.approvalInvariant (codec : Codec) (h : PreparedRows db) :
    ApprovalInvariant codec db where
  journal := h.journalInvariant codec
  waiting _ := .inl h.journal
  executed := by
    rintro ⟨event, hmem, -⟩
    rw [h.journal] at hmem
    cases hmem

/-- With the approval at the start, everything else follows. -/
theorem StartsApproved.invariant (h : StartsApproved db) (hjournal : JournalInvariant codec db) :
    ApprovalInvariant codec db :=
  ⟨hjournal, fun _ => .inr h, fun _ => h⟩

theorem ApprovalInvariant.framed (h : ApprovalInvariant codec db) (hf : DbFrame db db') :
    ApprovalInvariant codec db' := by
  refine ⟨h.journal.framed hf, fun hwaits => ?_, fun hintent => ?_⟩
  · rcases h.waiting (hf.waits hwaits) with hempty | happroved
    · exact .inl (hf.journal.trans hempty)
    · exact .inr (happroved.framed hf)
  · rw [hf.journal] at hintent
    exact (h.executed hintent).framed hf

/-- An event that is no forward intent and takes the execution out of waiting. -/
theorem ApprovalInvariant.left {w : EventWrite} (h : ApprovalInvariant ctx.codec db)
    (hw : EventCommitted ctx w db db') (hkind : w.event.kind ≠ .intentDurable)
    (hstatus : db'.session.status.waits = false) : ApprovalInvariant ctx.codec db' := by
  refine ⟨h.journal.committed hw, fun hwaits => ?_, ?_⟩
  · rw [hstatus] at hwaits
    cases hwaits
  · rintro ⟨event, hmem, hintent⟩
    rw [hw.effect.journal] at hmem
    rcases List.mem_append.1 hmem with hmem | hmem
    · exact (h.executed ⟨event, hmem, hintent⟩).committed hw
    · obtain rfl := List.mem_singleton.1 hmem
      exact absurd hintent hkind

theorem OrganizationExecutionStatus.waits_eq_false {status : OrganizationExecutionStatus}
    (h : status ≠ .awaitingConfirmation ∧ status ≠ .approved) : status.waits = false := by
  cases status <;> first | rfl | exact absurd rfl h.1 | exact absurd rfl h.2

/-- What the programs other than a start write keeps the invariant. -/
theorem ApprovalInvariant.committed {w : EventWrite} (h : ApprovalInvariant ctx.codec db)
    (hw : EventCommitted ctx w db db') (hpermitted : Permitted false db w) :
    ApprovalInvariant ctx.codec db' := by
  cases hpermitted with
  | plain hplain =>
      obtain ⟨s, hs, hne⟩ := hplain.started
      refine h.left hw hplain.noIntent ?_
      rw [hw.effect.status, hs]
      exact OrganizationExecutionStatus.waits_eq_false hne
  | approval hkind hfirst _ _ =>
      -- the first event of a journal is the only one
      have hempty : db.journal = [] := by
        have hseq := h.journal.event_sequence hw.accepted
        rw [hfirst] at hseq
        exact List.length_eq_zero_iff.1 hseq.symm
      refine StartsApproved.invariant ⟨w.event, [], ?_, hkind, hfirst, ?_⟩ (h.journal.committed hw)
      · rw [hw.effect.journal, hempty]
        rfl
      · exact hw.accepted.executionId.trans hw.effect.id.symm
  | intent request hnames hkind hstarted hallowed _ =>
      have hdir : request.direction = .rollback := by
        cases hd : request.direction with
        | forward => exact absurd (hallowed hd) (by decide)
        | rollback => rfl
      rw [hdir] at hkind
      refine h.left hw (by rw [hkind]; decide) ?_
      rw [hw.effect.status, hstarted, hkind]
      rfl

theorem ApprovalInvariant.kept (env : Env χ) :
    Kept env false fun w => ApprovalInvariant env.store.codec w.db where
  toInert := .ofRows fun db pause cancel h =>
    ⟨⟨h.journal.chained, h.journal.sequence, h.journal.head⟩, h.waiting, h.executed⟩
  rows _ h := h.journal
  dispatched _ _ _ h _ := h
  write call w hcall h := by
    by_cases hevent : ∃ ew, call = .event ew
    · obtain ⟨ew, rfl⟩ := hevent
      rcases @DbCall.event_step_cases env.store ew w.db with heq | hw
      · show ApprovalInvariant env.store.codec (DbCall.step env.store (.event ew) w.db)
        rw [heq]
        exact h
      · exact h.committed hw (hcall ew rfl).1
    · exact h.framed (DbCall.step_frame (fun ew heq => hevent ⟨ew, heq⟩) w.db)

/-! ## Starting -/

variable {env : Env χ}

/-- A start of an execution that is not approved is refused before it writes anything. -/
theorem startExecution_unapproved {P : World χ → Prop} (h : Inert P) {time : Int} :
    Prog.Triple (fun w => P w ∧ w.db.session.status ≠ .approved) (startExecution env time)
      (fun _ => P) P := by
  have hboth : Inert fun w : World χ => P w ∧ w.db.session.status ≠ .approved :=
    h.and (Inert.ofRows (I := fun db => db.session.status ≠ .approved) fun _ _ _ hs => hs)
  have hread : Prog.Triple (fun w : World χ => P w ∧ w.db.session.status ≠ .approved) readDetail
      (fun detail w => (P w ∧ w.db.session.status ≠ .approved) ∧
        detail.session.status ≠ .approved) P := by
    refine effect_triple hboth.stable (fun w detail hw heq => ⟨hw, ?_⟩) (fun _ hw => hw.1)
      fun _ hw => hw.1
    rw [raise_eq_ok] at heq
    rw [(Database.executionDetail_eq_ok heq).2]
    exact hw.2
  have keep : ∀ {α : Type} {m : Coordinator χ α},
      Prog.Keeps (fun w => P w ∧ w.db.session.status ≠ .approved) m →
      Prog.Triple (fun w => P w ∧ w.db.session.status ≠ .approved) m
        (fun _ w => P w ∧ w.db.session.status ≠ .approved) P := fun hm =>
    hm.triple.weaken (fun _ hw => hw) (fun _ _ hw => hw) fun _ hw => hw.1
  refine .bind (keep requireApplyGate_keeps) fun _ => .bind hread fun detail =>
    triple_of_pure fun hstatus => ?_
  refine .bind (keep .ensure) fun _ => .bind (keep (requireValidDatabaseJournal_keeps hboth.toStill))
    fun _ => .bind (keep (synchronizeExternalJournal_keeps hboth)) fun _ => ?_
  refine .bind (Q := fun _ _ => False) (.ensure (fun _ _ hc => hstatus hc) fun _ hw _ => hw.1)
    fun _ _ hw => hw.elim

/-- No start of the run meets an approved execution without a journal. -/
def StartsWithJournal (env : Env χ) (m : Machine χ) (steps : List (MachineStep χ)) : Prop :=
  ∀ before time turns after, steps = before ++ .call (.start time) turns :: after →
    (m.after env before).up = true → (m.after env before).world.db.session.status = .approved →
      (m.after env before).world.db.journal ≠ []

/-- A step keeps the invariant, unless it is a start of an approved execution without a journal. -/
theorem ApprovalInvariant.step {m : Machine χ} (step : MachineStep χ)
    (h : ApprovalInvariant env.store.codec m.world.db)
    (hstart : ∀ time turns, step = .call (.start time) turns → m.up = true →
      m.world.db.session.status = .approved → m.world.db.journal ≠ []) :
    ApprovalInvariant env.store.codec (m.step env step).world.db := by
  by_cases hforward : step.forward = true
  · -- only a start is left
    obtain ⟨time, turns, rfl⟩ : ∃ time turns, step = .call (.start time) turns := by
      cases step with
      | call c turns =>
          cases c with
          | start time => exact ⟨time, turns, rfl⟩
          | _ => cases hforward
      | restart => cases hforward
    by_cases happroved : m.world.db.session.status = .approved
    · by_cases hup : m.up = true
      · have hjournal := hstart time turns rfl hup happroved
        rcases h.waiting (by rw [happroved]; rfl) with hempty | hstarts
        · exact absurd hempty hjournal
        · obtain ⟨hinv, hs⟩ := Kept.step (.call (.start time) turns)
            (Kept.ofPreserved (StartsApproved.preserved env.store)) ⟨h.journal, hstarts⟩
          exact hs.invariant hinv
      · simpa only [Machine.step, if_neg hup] using h
    · have hinert := (ApprovalInvariant.kept env).toInert
      simp only [Machine.step]
      split
      · have hexec := Prog.Triple.bind (@startExecution_unapproved _ env _ hinert time)
          fun _ => Prog.Triple.pure (a := ())
            (Q := fun _ (w : World χ) => ApprovalInvariant env.store.codec w.db)
            fun _ hw => hw
        exact hexec.ends (s := { m.world with turns := turns }) ⟨h, happroved⟩
      · exact h
  · have hkept : Kept env step.forward fun w : World χ =>
        ApprovalInvariant env.store.codec w.db := by
      rw [Bool.not_eq_true] at hforward
      rw [hforward]
      exact ApprovalInvariant.kept env
    exact Kept.step step hkept h

theorem StartsWithJournal.init {m : Machine χ} {steps : List (MachineStep χ)} {last : MachineStep χ}
    (h : StartsWithJournal env m (steps ++ [last])) : StartsWithJournal env m steps := by
  rintro before time turns after rfl
  exact h before time turns (after ++ [last]) (by simp)

theorem ApprovalInvariant.after {m : Machine χ}
    (h : ApprovalInvariant env.store.codec m.world.db) {steps : List (MachineStep χ)}
    (hstarts : StartsWithJournal env m steps) :
    ApprovalInvariant env.store.codec (m.after env steps).world.db := by
  induction steps using List.reverseRecOn with
  | nil => exact h
  | append_singleton steps last ih =>
      rw [Machine.after, Run.after_append, Run.after_cons, Run.after_nil]
      refine ApprovalInvariant.step last (ih hstarts.init) fun time turns hlast => ?_
      exact hstarts steps time turns [] (by rw [hlast])

/-- **Every executed plan starts with its approval**, in every run in which no start meets an
    approved execution without a journal, in every state that is reached. -/
theorem executed_starts_with_approval (env : Env χ) {m : Machine χ} (h : m.Initial)
    (steps : List (MachineStep χ)) (hstarts : StartsWithJournal env m steps) :
    ∀ before, before <+: steps → ExecutedAfterApproval (m.after env before).world.db := by
  rintro before ⟨rest, rfl⟩
  have hbefore : StartsWithJournal env m before := by
    rintro first time turns after rfl
    exact hstarts first time turns (after ++ rest) (by simp)
  exact ((h.prepared.rows.approvalInvariant env.store.codec).after hbefore).executed

/-- The sample run, in which the start meets the journal of the approval. -/
theorem executed_starts_with_approval_sample :
    (∃ event ∈ (sampleMachine.after sampleEnv sampleSteps).world.db.journal,
        event.kind = .intentDurable) ∧
      ∀ before, before <+: sampleSteps →
        ExecutedAfterApproval (sampleMachine.after sampleEnv before).world.db := by
  refine ⟨by decide +kernel, executed_starts_with_approval sampleEnv sampleMachine_initial
    sampleSteps ?_⟩
  intro before time turns after hsteps _ _
  -- the start is the third step
  rw [sampleSteps] at hsteps
  rcases before with - | ⟨first, - | ⟨second, - | ⟨third, before⟩⟩⟩
  · simp at hsteps
  · simp at hsteps
  · obtain ⟨rfl, htail⟩ := List.cons.inj hsteps
    obtain ⟨rfl, -⟩ := List.cons.inj htail
    decide +kernel
  · simp at hsteps

/-- A crash after the attestation was stored and before the approval was: the restarted service
    executes the plan, and its journal does not start with the approval. -/
def crashedSteps : List (MachineStep (Option ExecutionDetail)) :=
  [.call (.createChallenge none (Bytes32.filled 4) 1) [],
    .call (.finalize createdChallenge 2)
      (List.replicate 7 { fault := none } ++ [{ fault := some .crashAfter }]),
    .restart 0 [] none [], .call (.start 3) []]

theorem executed_without_approval :
    sampleMachine.Initial ∧
      ¬ExecutedAfterApproval (sampleMachine.after sampleEnv crashedSteps).world.db := by
  refine ⟨sampleMachine_initial, fun h => ?_⟩
  obtain ⟨first, rest, hjournal, hkind, -⟩ := h (by decide +kernel)
  have hhead : (sampleMachine.after sampleEnv crashedSteps).world.db.journal.head?.map (·.kind)
      = some .preconditionsValidated := by decide +kernel
  rw [hjournal, List.head?_cons, Option.map_some, hkind] at hhead
  cases hhead

end Zemo
