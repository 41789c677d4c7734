import Zemo.Coordinator.Start
import Zemo.Plan.Destinations

set_option autoImplicit false

/-! # Every plan is a schedule

A candidate only waits for candidates that are not blocked in the end, the greedy order takes a
candidate after those it waits for, and staging keeps that. So the operations of every plan stand
after all they depend on, and the loop that runs them never finds a dependency that was not
applied. -/

namespace Zemo

open Checked GreedyOrder

/-! ## What candidates wait for -/

section Candidates

variable {planner : Planner} {tree : Tree} {candidates more : List PlannedCandidate}

/-- The ids of the candidates. -/
def candidateIds (candidates : List PlannedCandidate) : List OperationStepId :=
  candidates.map (·.operation.id)

/-- The candidates wait for each other only. -/
def Known (candidates : List PlannedCandidate) : Prop :=
  ∀ c ∈ candidates, c.operation.dependencies ⊆ candidateIds candidates

theorem PlannedCandidate.Evolves.id {a b : PlannedCandidate} (h : a.Evolves b) :
    b.operation.id = a.operation.id := by cases h <;> rfl

theorem Evolved.ids (h : Evolved candidates more) :
    candidateIds more = candidateIds candidates := by
  unfold Evolved at h
  induction h with
  | nil => rfl
  | cons hab _ ih => exact congrArg₂ List.cons hab.id ih

/-- A pass that blocks some candidates. -/
def Blocks (f : PlannedCandidate → PlannedCandidate) : Prop :=
  ∀ c, f c = c ∨ c.blocked = false ∧ ∃ why, f c = c.block why

theorem Known.blocked {f : PlannedCandidate → PlannedCandidate} (h : Known candidates)
    (hf : Blocks f) : Known (candidates.map f) := by
  have hsame : ∀ c, (f c).operation.id = c.operation.id ∧
      (f c).operation.dependencies = c.operation.dependencies := by
    intro c
    rcases hf c with heq | ⟨-, why, heq⟩ <;> rw [heq] <;> exact ⟨rfl, rfl⟩
  have hids : candidateIds (candidates.map f) = candidateIds candidates := by
    rw [candidateIds, List.map_map]
    exact List.map_congr_left fun c _ => (hsame c).1
  intro c hc
  obtain ⟨before, hbefore, rfl⟩ := List.mem_map.1 hc
  rw [hids, (hsame before).2]
  exact h before hbefore

theorem destinationVerdict_after {open_ : List Bool} {index : Nat} {candidate : PlannedCandidate}
    {id : OperationStepId}
    (h : destinationVerdict planner tree candidates open_ index candidate = .after id) :
    id ∈ candidateIds candidates := by
  have hoccupied : occupiedVerdict planner candidates open_ index candidate = .after id := by
    unfold destinationVerdict at h
    simp only at h
    split at h
    · cases h
    · split at h
      · exact h
      · split at h <;> cases h
      · cases h
  unfold occupiedVerdict at hoccupied
  split at hoccupied
  · cases hoccupied
  · split at hoccupied
    · cases hoccupied
    · split at hoccupied
      · cases hoccupied
      · rename_i other hother
        split at hoccupied
        · cases hoccupied
        · obtain rfl := DestinationVerdict.after.inj hoccupied
          exact List.mem_map_of_mem (List.mem_of_getElem? hother)

theorem Known.resolveAt {open_ : List Bool} {index : Nat} (h : Known candidates) :
    Known (resolveAt planner tree open_ candidates index) := by
  have hids := (resolveAt_evolved planner tree open_ candidates index).ids
  intro c hc
  rw [hids]
  unfold Zemo.resolveAt at hc
  split at hc
  · exact h c hc
  · rename_i candidate hget
    have hbefore := h candidate (List.mem_of_getElem? hget)
    split at hc
    · exact h c hc
    · rcases List.mem_or_eq_of_mem_set hc with hmem | rfl
      · exact h c hmem
      · cases hverdict : destinationVerdict planner tree candidates open_ index candidate with
        | free => exact hbefore
        | after id =>
            refine List.append_subset.2 ⟨hbefore, ?_⟩
            simpa using destinationVerdict_after hverdict
        | blocked why => exact hbefore

theorem Known.foldl_resolveAt {open_ : List Bool} {indexes : List Nat} (h : Known candidates) :
    Known (indexes.foldl (Zemo.resolveAt planner tree open_) candidates) := by
  induction indexes generalizing candidates with
  | nil => exact h
  | cons index rest ih => exact ih h.resolveAt

/-! ## Blocked dependencies -/

/-- How many candidates are not blocked. -/
def openCount (candidates : List PlannedCandidate) : Nat := candidates.countP fun c => !c.blocked

/-- A pass that changes something leaves fewer candidates open. -/
theorem Blocks.map {f : PlannedCandidate → PlannedCandidate} (hf : Blocks f)
    (candidates : List PlannedCandidate) :
    candidates.map f = candidates ∨ openCount (candidates.map f) < openCount candidates := by
  induction candidates with
  | nil => exact .inl rfl
  | cons c rest ih =>
      simp only [openCount, List.map_cons, List.countP_cons] at ih ⊢
      rcases hf c with heq | ⟨hopen, why, heq⟩
      · rw [heq]
        rcases ih with hsame | hless
        · exact .inl (by rw [hsame])
        · exact .inr (by omega)
      · right
        simp only [heq, PlannedCandidate.block, hopen, Bool.not_true, Bool.not_false,
          Bool.false_eq_true, if_false, if_true]
        rcases ih with hsame | hless
        · rw [hsame]
          omega
        · omega

theorem propagateRound_blocks (blockedIds : List OperationStepId) (why : Blocking) :
    Blocks fun c => if c.blocked = false ∧ c.operation.dependencies.any (· ∈ blockedIds) then
      c.block why else c := by
  intro c
  dsimp only
  split
  · exact .inr ⟨And.left ‹_›, why, rfl⟩
  · exact .inl rfl

/-- The rounds end with one that changes nothing. -/
theorem propagateFor_fixed {fuel : Nat} (h : openCount candidates < fuel) :
    propagateRound (propagateFor fuel candidates) = propagateFor fuel candidates := by
  induction fuel generalizing candidates with
  | zero => omega
  | succ fuel ih =>
      rw [propagateFor]
      split
      · assumption
      · rename_i hchanged
        refine ih (lt_of_lt_of_le ?_ (Nat.le_of_lt_succ h))
        exact ((propagateRound_blocks _ _).map candidates).resolve_left hchanged

theorem Known.propagateFor {fuel : Nat} (h : Known candidates) :
    Known (propagateFor fuel candidates) := by
  induction fuel generalizing candidates with
  | zero => exact h
  | succ fuel ih =>
      rw [Zemo.propagateFor]
      split
      · exact h
      · exact ih (h.blocked (propagateRound_blocks _ _))

/-- **A candidate that is not blocked waits for candidates that are not blocked.** -/
theorem planCandidates_waits {proposal : OrganizationProposal} {volume : VolumeIdentity}
    {c : PlannedCandidate} (hc : c ∈ planCandidates planner proposal tree volume)
    (hopen : c.blocked = false) : c.operation.dependencies ⊆
      candidateIds ((planCandidates planner proposal tree volume).filter (!·.blocked)) := by
  have hknown : Known (planCandidates planner proposal tree volume) := by
    refine Known.propagateFor (Known.foldl_resolveAt (Known.blocked (fun c hc => ?_) fun c => ?_))
    · obtain ⟨index, hindex, rfl⟩ := List.mem_mapIdx.1 hc
      unfold preflightCandidate
      split <;> exact List.nil_subset _
    · split
      · exact .inr ⟨And.left ‹_›, _, rfl⟩
      · exact .inl rfl
  have hfixed : propagateRound (planCandidates planner proposal tree volume) =
      planCandidates planner proposal tree volume :=
    propagateFor_fixed (Nat.lt_succ_of_le List.countP_le_length)
  intro id hid
  obtain ⟨other, hother, rfl⟩ := List.mem_map.1 (hknown c hc hid)
  refine List.mem_map_of_mem (List.mem_filter.2 ⟨hother, ?_⟩)
  cases hblocked : other.blocked with
  | false => rfl
  | true =>
      -- otherwise a further round would block the candidate
      have hsame := List.map_inj_left.1 (hfixed.trans (List.map_id _).symm) c hc
      rw [if_pos ⟨hopen, List.any_eq_true.2 ⟨_, hid, decide_eq_true
        (List.mem_map_of_mem (List.mem_filter.2 ⟨hother, hblocked⟩))⟩⟩] at hsame
      rw [← show c.block _ = c from hsame] at hopen
      cases hopen

end Candidates

/-! ## The operations in their order -/

section Executable

variable {planner : Planner} {tree : Tree} {reserved paths : List RelPath}
  {candidates : List PlannedCandidate} {done : List OperationStepId}

/-- Every operation stands after those it depends on. -/
abbrev Sequenced (done : List OperationStepId) (operations : List ExecutionOperation) : Prop :=
  InOrder (·.id) (·.dependencies) done operations

/-- A stage comes before its final move, and waits for what the move waited for. -/
theorem stageOrdered_sequenced {operations : List ExecutionOperation}
    (hcandidates : InOrder (·.operation.id) (·.operation.dependencies) done candidates)
    (h : stageOrdered planner tree candidates reserved = .ok (operations, paths)) :
    Sequenced done operations := by
  induction candidates generalizing reserved operations paths done with
  | nil =>
      obtain ⟨rfl, -⟩ := Prod.mk.inj (Except.ok.inj h)
      trivial
  | cons candidate rest ih =>
      obtain ⟨hwaits, hrest⟩ := hcandidates
      simp only [stageOrdered] at h
      split at h
      · simp only [bind_eq_ok] at h
        obtain ⟨source, -, path, -, ⟨ops, paths'⟩, hops, h⟩ := h
        obtain ⟨rfl, -⟩ := Prod.mk.inj (Except.ok.inj h)
        refine ⟨hwaits, fun d hd => ?_, ih (hrest.mono ?_) hops⟩
        · rw [List.mem_singleton.1 hd]
          exact List.mem_cons_self ..
        · exact List.cons_subset_cons _ (List.subset_cons_self ..)
      · simp only [bind_eq_ok] at h
        obtain ⟨⟨ops, paths'⟩, hops, h⟩ := h
        obtain ⟨rfl, -⟩ := Prod.mk.inj (Except.ok.inj h)
        exact ⟨hwaits, ih hrest hops⟩

theorem stageCyclic_free {stages finals : List ExecutionOperation}
    (h : stageCyclic planner tree candidates reserved = .ok (stages, finals, paths)) :
    ∀ op ∈ stages, op.dependencies = [] := by
  induction candidates generalizing reserved stages finals paths with
  | nil =>
      obtain ⟨rfl, -⟩ := Prod.mk.inj (Except.ok.inj h)
      simp
  | cons candidate rest ih =>
      simp only [stageCyclic, bind_eq_ok] at h
      obtain ⟨source, -, path, -, ⟨stages', finals', paths'⟩, hrest, h⟩ := h
      obtain ⟨rfl, -⟩ := Prod.mk.inj (Except.ok.inj h)
      exact List.forall_mem_cons.2 ⟨rfl, ih hrest⟩

theorem executableOperations_sequenced {executable : List ExecutionOperation}
    (hwaits : ∀ c ∈ candidates.filter (!·.blocked),
      c.operation.dependencies ⊆ candidateIds (candidates.filter (!·.blocked)))
    (h : executableOperations planner tree candidates = .ok (executable, paths)) :
    Sequenced [] executable := by
  simp only [executableOperations, bind_eq_ok] at h
  obtain ⟨⟨direct, reserved⟩, hdirect, ⟨stages, finals, paths'⟩, hcyclic, h⟩ := h
  obtain ⟨rfl, -⟩ := Prod.mk.inj (Except.ok.inj h)
  have hordered : InOrder (·.operation.id) (·.operation.dependencies) []
      (dependencyOrder planner candidates).1 :=
    @order_inOrder _ _ _ _ (orderRules planner) _ fun c hc d hd => hwaits c hc hd
  have hfree := stageCyclic_free hcyclic
  refine ((stageOrdered_sequenced hordered hdirect).append
    (.of_settled fun op hop d hd => ?_)).append (.of_settled fun op hop d hd => ?_)
  · rw [hfree op hop] at hd
    cases hd
  · obtain ⟨final, -, rfl⟩ := List.mem_map.1 hop
    simp only [List.map_append, List.append_nil, List.mem_append]
    exact .inr hd

end Executable

/-! ## Plans -/

section Plans

variable {planner : Planner} {context : PlanContext planner} {db : Database}

theorem Sequenced.mapIdx {done : List OperationStepId} {operations : List ExecutionOperation}
    (h : Sequenced done operations) {f : ℕ → ExecutionOperation → ExecutionOperation}
    (hf : ∀ i op, (f i op).id = op.id ∧ (f i op).dependencies = op.dependencies) :
    Sequenced done (operations.mapIdx f) := by
  induction operations generalizing done f with
  | nil => trivial
  | cons op rest ih =>
      obtain ⟨hop, hrest⟩ := h
      rw [List.mapIdx_cons]
      refine ⟨?_, ?_⟩
      · show ∀ d ∈ (f 0 op).dependencies, d ∈ done
        rw [(hf 0 op).2]
        exact hop
      · show Sequenced ((f 0 op).id :: done) _
        rw [(hf 0 op).1]
        exact ih hrest fun i op => hf (i + 1) op

/-- The loop over the operations, without a look at their dependencies. -/
def runInOrder {χ : Type} (env : Env χ) (executionId : ExecutionId)
    (session : ExecutorSessionIdentity) (group : List OperationStepId) :
    List ExecutionOperation → Schedule → Coordinator χ ScheduleEnd
  | [], s => pure (.finished s)
  | op :: rest, s =>
      query (fun db => .ok (db.session.pauseRequested, db.session.cancelRequested)) >>=
          fun control =>
        if (control.2 ∨ control.1) ∧ ¬(s.cycleGroupStarted ∧ op.id ∈ group) then
          stopSchedule env executionId control.2 s.cursor
        else
          applyScheduledOperation env executionId session op s.cursor >>= fun outcome =>
            match outcome with
            | .applied cursor => runInOrder env executionId session group rest (s.after op cursor)
            | .terminal detail => pure (.stopped detail)

/-- A run finds every dependency of sequenced operations applied. -/
theorem runSchedule_eq {χ : Type} {env : Env χ} {executionId : ExecutionId}
    {session : ExecutorSessionIdentity} {group : List OperationStepId}
    {operations : List ExecutionOperation} {s : Schedule} (h : Sequenced s.applied operations) :
    runSchedule env executionId session group operations s =
      runInOrder env executionId session group operations s := by
  induction operations generalizing s with
  | nil => rfl
  | cons op rest ih =>
      obtain ⟨hop, hrest⟩ := h
      have hfound : ¬op.dependencies.any (· ∉ s.applied) = true := by simpa using hop
      simp only [runSchedule, runInOrder, if_neg hfound]
      refine congrArg _ (funext fun control => ?_)
      split
      · rfl
      · refine congrArg _ (funext fun outcome => ?_)
        cases outcome with
        | applied cursor => exact ih hrest
        | terminal detail => rfl

/-- What running a plan relies on. -/
structure IsSchedule (operations : List ExecutionOperation) : Prop where
  numbered : ∀ index (op : ExecutionOperation), operations[index]? = some op → op.sequence = index
  distinct : (operations.map (·.id)).Nodup
  /-- An operation depends only on operations that are run before it. -/
  waits : ∀ before op after, schedulable operations = before ++ op :: after →
    ∀ id ∈ op.dependencies, ∃ earlier ∈ before, earlier.id = id
  /-- Whatever happens while they are run, no operation is refused for a dependency. -/
  runs : ∀ {χ : Type} (env : Env χ) executionId session group s,
    runSchedule env executionId session group (schedulable operations) s =
      runInOrder env executionId session group (schedulable operations) s

/-- **Every plan is a schedule.** -/
theorem prepareExecution_isSchedule (h : prepareExecution planner context = .ok db) :
    IsSchedule db.operations := by
  obtain ⟨directories, executable, cleanup, ⟨volume, paths, hexec⟩, haside, ⟨excluded, hstored⟩,
    hruns⟩ := prepareExecution_planParts h
  have hexecutable : Sequenced [] executable := by
    refine executableOperations_sequenced (fun c hc => ?_) hexec
    obtain ⟨hmem, hopen⟩ : _ ∧ c.blocked = false := by simpa using hc
    exact planCandidates_waits hmem hopen
  -- the directories and the cleanup wait for nothing
  have hsettled : ∀ ops ⊆ directories ++ cleanup, ∀ done, Sequenced done ops := fun ops hops _ =>
    .of_settled fun op hop d hd => by simp [haside op (hops hop)] at hd
  have hwaits : Sequenced [] (schedulable db.operations) := by
    rw [hruns]
    exact Sequenced.mapIdx (((hsettled _ (List.subset_append_left ..) _).append (hexecutable.mono
      (List.nil_subset _))).append (hsettled _ (List.subset_append_right ..) _))
        fun _ _ => ⟨rfl, rfl⟩
  obtain ⟨-, -, -, -, -, hprepared⟩ := prepareExecution_plan h
  refine ⟨fun index op hop => ?_, hprepared.rows.ids, fun before op after hsplit id hid => ?_,
    fun env executionId session group s => runSchedule_eq (hwaits.mono (List.nil_subset _))⟩
  · rw [hstored, List.getElem?_mapIdx, Option.map_eq_some_iff] at hop
    obtain ⟨other, -, rfl⟩ := hop
    rfl
  · rw [hsplit] at hwaits
    exact (hwaits.before hid).resolve_left (List.not_mem_nil)

/-- Two files that change their names: the moves from the staging area wait for both stages. -/
theorem swapContext_isSchedule :
    ((schedulable (plannedRows swapContext).operations).map (·.dependencies.length) =
      [0, 0, 0, 0, 2, 2]) ∧ IsSchedule (plannedRows swapContext).operations :=
  ⟨by decide, prepareExecution_isSchedule (prepareExecution_plannedRows (by decide))⟩

end Plans

end Zemo
