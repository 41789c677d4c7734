import Zemo.Plan.Shape

set_option autoImplicit false

/-! # Every plan is staged

The operations `prepare_execution` stores, as far as they will be run, are a staged sequence: the
directories and the ordered moves, then the cycles, then the cleanup. -/

namespace Zemo

open Checked

/-- The operations of an execution that will be run. -/
def schedulable (operations : List ExecutionOperation) : List ExecutionOperation :=
  operations.filter (·.status = .preflightOk)

/-- The operation moves a user's file and is ready. -/
structure MovesFile (op : ExecutionOperation) : Prop where
  notStage : op.kind ≠ .internalStage
  moves : op.kind.isDirectory = false
  ready : op.status = .preflightOk

section Executable

variable {planner : Planner} {tree : Tree}

theorem stageOrdered_staged {candidates : List PlannedCandidate} {reserved paths : List RelPath}
    {operations : List ExecutionOperation} (hcandidates : ∀ c ∈ candidates, MovesFile c.operation)
    (h : stageOrdered planner tree candidates reserved = .ok (operations, paths)) :
    Paired operations ∧ ∀ op ∈ operations, op.status = .preflightOk := by
  induction candidates generalizing reserved operations paths with
  | nil =>
      obtain ⟨rfl, -⟩ := Prod.mk.inj (Except.ok.inj h)
      exact ⟨.nil, fun _ hop => nomatch hop⟩
  | cons candidate rest ih =>
      have hhead := hcandidates candidate (List.mem_cons_self ..)
      have htail := fun c hc => hcandidates c (List.mem_cons_of_mem _ hc)
      simp only [stageOrdered] at h
      split at h
      · simp only [bind_eq_ok] at h
        obtain ⟨source, -, path, -, ⟨ops, paths'⟩, hrest, h⟩ := h
        obtain ⟨rfl, -⟩ := Prod.mk.inj (Except.ok.inj h)
        obtain ⟨hpaired, hready⟩ := ih htail hrest
        refine ⟨.pair rfl ⟨rfl, List.mem_singleton_self _, hhead.notStage, hhead.moves⟩ hpaired,
          ?_⟩
        intro op hop
        rcases List.mem_cons.1 hop with rfl | hop
        · rfl
        · rcases List.mem_cons.1 hop with rfl | hop
          · exact hhead.ready
          · exact hready op hop
      · simp only [bind_eq_ok] at h
        obtain ⟨⟨ops, paths'⟩, hrest, h⟩ := h
        obtain ⟨rfl, -⟩ := Prod.mk.inj (Except.ok.inj h)
        obtain ⟨hpaired, hready⟩ := ih htail hrest
        exact ⟨.single hhead.notStage hpaired, List.forall_mem_cons.2 ⟨hhead.ready, hready⟩⟩

/-- The stages of the cycles and the moves from the staging paths. -/
structure CycleStages (stages finals : List ExecutionOperation) : Prop where
  stage : ∀ op ∈ stages, op.kind = .internalStage ∧ op.status = .preflightOk
  final : ∀ op ∈ finals, MovesFile op
  leaves : ∀ stage ∈ stages, ∃ final ∈ finals,
    final.sourceRelativePath = some stage.destinationRelativePath

theorem stageCyclic_stages {candidates : List PlannedCandidate} {reserved paths : List RelPath}
    {stages finals : List ExecutionOperation}
    (hcandidates : ∀ c ∈ candidates, MovesFile c.operation)
    (h : stageCyclic planner tree candidates reserved = .ok (stages, finals, paths)) :
    CycleStages stages finals := by
  induction candidates generalizing reserved stages finals paths with
  | nil =>
      obtain ⟨rfl, hrest⟩ := Prod.mk.inj (Except.ok.inj h)
      obtain ⟨rfl, -⟩ := Prod.mk.inj hrest
      exact ⟨fun _ hop => (nomatch hop), fun _ hop => (nomatch hop), fun _ hop => (nomatch hop)⟩
  | cons candidate rest ih =>
      have hhead := hcandidates candidate (List.mem_cons_self ..)
      simp only [stageCyclic, bind_eq_ok] at h
      obtain ⟨source, -, path, -, ⟨stages', finals', paths'⟩, hrest, heq⟩ := h
      simp only [pure, Except.pure, Except.ok.injEq, Prod.mk.injEq] at heq
      obtain ⟨rfl, rfl, -⟩ := heq
      obtain ⟨hstage, hfinal, hleaves⟩ :=
        ih (fun c hc => hcandidates c (List.mem_cons_of_mem _ hc)) hrest
      refine ⟨List.forall_mem_cons.2 ⟨⟨rfl, rfl⟩, hstage⟩, List.forall_mem_cons.2
        ⟨⟨hhead.notStage, hhead.moves, hhead.ready⟩, hfinal⟩, fun stage hs => ?_⟩
      rcases List.mem_cons.1 hs with rfl | hs
      · exact ⟨_, List.mem_cons_self .., rfl⟩
      · obtain ⟨final, hmem, hsource⟩ := hleaves stage hs
        exact ⟨final, List.mem_cons_of_mem _ hmem, hsource⟩

theorem mem_dependencyOrder {candidates : List PlannedCandidate} {c : PlannedCandidate}
    (h : c ∈ (dependencyOrder planner candidates).1 ∨ c ∈ (dependencyOrder planner candidates).2) :
    c ∈ candidates ∧ c.blocked = false := by
  have hperm := @GreedyOrder.order_perm _ _ _ _ (orderRules planner)
    (candidates.filter fun c => !c.blocked)
  have hmem : c ∈ candidates.filter fun c => !c.blocked := by
    refine hperm.subset (List.mem_append.2 (h.imp_right fun h => ?_))
    exact (List.perm_insertionSort _ _).subset h
  simpa using hmem

theorem executableOperations_staged {candidates : List PlannedCandidate} {paths : List RelPath}
    {executable : List ExecutionOperation}
    (hcandidates : ∀ c ∈ candidates, c.blocked = false → MovesFile c.operation)
    (h : executableOperations planner tree candidates = .ok (executable, paths)) :
    ∃ direct stages finals, executable = direct ++ stages ++ finals ∧
      Staged direct stages finals [] ∧ ∀ op ∈ executable, op.status = .preflightOk := by
  simp only [executableOperations, bind_eq_ok] at h
  obtain ⟨⟨direct, reserved⟩, hdirect, ⟨stages, finals, paths'⟩, hcyclic, h⟩ := h
  obtain ⟨rfl, -⟩ := Prod.mk.inj (Except.ok.inj h)
  have hmoves : ∀ c, c ∈ (dependencyOrder planner candidates).1 ∨
      c ∈ (dependencyOrder planner candidates).2 → MovesFile c.operation := fun c hc =>
    let ⟨hmem, hopen⟩ := mem_dependencyOrder hc
    hcandidates c hmem hopen
  obtain ⟨hpaired, hready⟩ := stageOrdered_staged (fun c hc => hmoves c (.inl hc)) hdirect
  obtain ⟨hstage, hfinal, hleaves⟩ := stageCyclic_stages (fun c hc => hmoves c (.inr hc)) hcyclic
  refine ⟨direct, stages, _, rfl, ⟨hpaired, fun op hop => (hstage op hop).1, ?_, ?_,
    fun _ hop => (nomatch hop)⟩, ?_⟩
  · intro stage hs
    obtain ⟨final, hmem, hsource⟩ := hleaves stage hs
    refine ⟨_, List.mem_map_of_mem hmem, hsource, List.mem_map_of_mem hs,
      (hfinal final hmem).notStage, (hfinal final hmem).moves⟩
  · intro final' hfinal'
    obtain ⟨final, hmem, rfl⟩ := List.mem_map.1 hfinal'
    exact ⟨(hfinal final hmem).notStage, fun stage hs => List.mem_map_of_mem hs⟩
  · intro op hop
    simp only [List.mem_append, List.mem_map] at hop
    rcases hop with (hop | hop) | ⟨final, hmem, rfl⟩
    · exact hready op hop
    · exact (hstage op hop).2
    · exact (hfinal final hmem).ready

end Executable

/-! ## The stored operations -/

theorem schedulable_append (as bs : List ExecutionOperation) :
    schedulable (as ++ bs) = schedulable as ++ schedulable bs := List.filter_append ..

theorem schedulable_ready {ops : List ExecutionOperation}
    {f : ℕ → ExecutionOperation → ExecutionOperation} (hf : ∀ i op, (f i op).status = op.status)
    (h : ∀ op ∈ ops, op.status = .preflightOk) : schedulable (ops.mapIdx f) = ops.mapIdx f := by
  refine List.filter_eq_self.2 fun op hop => ?_
  obtain ⟨i, hi, rfl⟩ := List.mem_mapIdx.1 hop
  simpa [hf] using h _ (List.getElem_mem hi)

theorem schedulable_blocked {ops : List ExecutionOperation}
    {f : ℕ → ExecutionOperation → ExecutionOperation} (hf : ∀ i op, (f i op).status = op.status)
    (h : ∀ op ∈ ops, op.status ≠ .preflightOk) : schedulable (ops.mapIdx f) = [] := by
  refine List.filter_eq_nil_iff.2 fun op hop => ?_
  obtain ⟨i, hi, rfl⟩ := List.mem_mapIdx.1 hop
  simpa [hf] using h _ (List.getElem_mem hi)

theorem map_numbered {ops : List ExecutionOperation}
    {f : ℕ → ExecutionOperation → ExecutionOperation}
    {g : ExecutionOperation → ExecutionOperation} :
    (ops.mapIdx f).map g = ops.mapIdx fun i op => g (f i op) := by
  induction ops generalizing f with
  | nil => rfl
  | cons op rest ih => rw [List.mapIdx_cons, List.map_cons, ih, List.mapIdx_cons]

/-- Of the numbered operations of a plan, all but the blocked ones will be run. -/
private theorem schedulable_numbered {first stages finals cleanup blocked : List ExecutionOperation}
    {f : ℕ → ExecutionOperation → ExecutionOperation} (hf : ∀ i op, (f i op).status = op.status)
    (hready : ∀ op ∈ first ++ stages ++ finals ++ cleanup, op.status = .preflightOk)
    (hblocked : ∀ op ∈ blocked, op.status ≠ .preflightOk) :
    schedulable ((first ++ stages ++ finals ++ cleanup ++ blocked).mapIdx f) =
      first.mapIdx f ++
        (stages.mapIdx (fun i => f (i + first.length)) ++
          finals.mapIdx fun i => f (i + (first ++ stages).length)) ++
        cleanup.mapIdx fun i => f (i + (first ++ stages ++ finals).length) := by
  rw [List.mapIdx_append, schedulable_append, schedulable_ready hf hready,
    schedulable_blocked (fun i op => hf _ op) hblocked, List.append_nil, List.mapIdx_append,
    List.mapIdx_append, List.mapIdx_append, List.append_assoc (first.mapIdx f)]

section Stored

variable {planner : Planner}

/-- The sequences of a plan, before its operations are numbered. -/
structure Emission (planner : Planner) (view : FileView planner.files.lower)
    (candidates : List PlannedCandidate)
    (directories executable cleanup : List ExecutionOperation) : Prop where
  directories : ∀ op ∈ directories, op.kind = .createDirectory ∧ op.status = .preflightOk
  executable : ∃ paths, executableOperations planner view.tree candidates = .ok (executable, paths)
  cleanup : ∀ op ∈ cleanup, op.kind = .removeDirectoryIfEmpty ∧ op.status = .preflightOk

/-- Where the files of the user are to go. -/
def userDestinations (executable : List ExecutionOperation) : List RelPath :=
  (executable.filter (·.kind ≠ .internalStage)).map (·.destinationRelativePath)

theorem planOperations_parts {view : FileView planner.files.lower}
    {candidates : List PlannedCandidate} {operations : List ExecutionOperation} {count : Nat}
    (h : planOperations planner view candidates = .ok (operations, count)) :
    ∃ executable paths directories userCount,
      executableOperations planner view.tree candidates = .ok (executable, paths) ∧
      planDirectories planner view.tree (userDestinations executable ++ paths)
        (userDestinations executable) = .ok (directories, userCount) ∧
      operations = (directories ++ executable ++
        planSourceDirectoryCleanup planner view executable (userDestinations executable) ++
        (candidates.filter (·.blocked)).map (·.operation)).mapIdx
          fun index operation => { operation with sequence := index } := by
  simp only [planOperations, bind_eq_ok] at h
  obtain ⟨⟨executable, paths⟩, hexec, ⟨directories, userCount⟩, hdirectories, _, -, h⟩ := h
  obtain ⟨rfl, -⟩ := Prod.mk.inj (Except.ok.inj h)
  exact ⟨executable, paths, directories, userCount, hexec, hdirectories, rfl⟩

theorem planOperations_emission {view : FileView planner.files.lower}
    {candidates : List PlannedCandidate} {operations : List ExecutionOperation} {count : Nat}
    (h : planOperations planner view candidates = .ok (operations, count)) :
    ∃ directories executable cleanup,
      Emission planner view candidates directories executable cleanup ∧
      operations = (directories ++ executable ++ cleanup ++
        (candidates.filter (·.blocked)).map (·.operation)).mapIdx
          fun index operation => { operation with sequence := index } := by
  obtain ⟨executable, paths, directories, userCount, hexec, hdirectories, rfl⟩ :=
    planOperations_parts h
  simp only [planDirectories, bind_eq_ok] at hdirectories
  obtain ⟨_, -, _, -, missing, -, hmissing⟩ := hdirectories
  obtain ⟨rfl, -⟩ := Prod.mk.inj (Except.ok.inj hmissing)
  refine ⟨_, executable, _, ⟨fun op hop => ?_, ⟨paths, hexec⟩, fun op hop => ?_⟩, rfl⟩
  · obtain ⟨i, hi, rfl⟩ := List.mem_mapIdx.1 hop
    exact ⟨rfl, rfl⟩
  · obtain ⟨i, hi, rfl⟩ := List.mem_mapIdx.1 hop
    exact ⟨rfl, rfl⟩

variable {context : PlanContext planner} {db : Database}

/-- The parts of a plan that was prepared. -/
structure PreparedPlan (planner : Planner) (context : PlanContext planner) (db : Database)
    (candidates : List PlannedCandidate) (operations : List ExecutionOperation) : Prop where
  checked : ∃ volume,
    candidates = planCandidates planner context.proposal context.view.tree volume
  emitted : ∃ count, planOperations planner context.view candidates = .ok (operations, count)
  stored : db.operations = operations.map fun op => { op with postFingerprint := none }
  prepared : Prepared db

theorem prepareExecution_plan (h : prepareExecution planner context = .ok db) :
    ∃ candidates operations, PreparedPlan planner context db candidates operations := by
  simp only [prepareExecution, bind_eq_ok, raise_eq_ok] at h
  obtain ⟨detail, hplan, _, -, hpersist⟩ := h
  simp only [planExecution, bind_eq_ok] at hplan
  obtain ⟨_, -, _, -, _, -, root, -, volume, -, _, -, safetyPolicy, -, _, -, _, -,
    ⟨operations, count⟩, hops, hdetail⟩ := hplan
  have hdb : db = preparedRows detail := by
    have h := hpersist
    simp only [persistPreparedExecution, bind_eq_ok] at h
    obtain ⟨_, -, _, -, h⟩ := h
    exact (Except.ok.inj h).symm
  refine ⟨_, operations, ⟨volume, rfl⟩, ⟨count, hops⟩, ?_, ⟨detail, hpersist⟩⟩
  rw [hdb, ← Except.ok.inj hdetail]
  rfl

/-- The parts of the stored operations of a plan, in their order. -/
structure StoredParts (operations direct stages finals cleanup blocked : List ExecutionOperation) :
    Prop where
  staged : Staged direct stages finals cleanup
  ready : ∀ op ∈ direct ++ stages ++ finals ++ cleanup, op.status = .preflightOk
  excluded : ∀ op ∈ blocked, op.status = .blocked ∨ op.status = .stale
  numbered : operations = (direct ++ stages ++ finals ++ cleanup ++ blocked).mapIdx
    fun index op => { op with sequence := index, postFingerprint := none }

theorem prepareExecution_parts (h : prepareExecution planner context = .ok db) :
    ∃ direct stages finals cleanup blocked,
      StoredParts db.operations direct stages finals cleanup blocked := by
  obtain ⟨candidates, operations, ⟨volume, hcandidates⟩, ⟨count, hops⟩, hstored, -⟩ :=
    prepareExecution_plan h
  obtain ⟨directories, executable, cleanup, hemission, rfl⟩ := planOperations_emission hops
  have hplanned : ∀ c ∈ candidates, ∃ index asked,
      Planned planner context.proposal context.view.tree volume c index asked := fun c hc =>
    planned_of_mem (hcandidates ▸ hc)
  have hmoves : ∀ c ∈ candidates, c.blocked = false → MovesFile c.operation := by
    intro c hc hopen
    obtain ⟨index, asked, hp⟩ := hplanned c hc
    exact ⟨hp.moves.1, hp.moves.2, hp.status_of_open hopen⟩
  obtain ⟨paths, hexec⟩ := hemission.executable
  obtain ⟨direct, stages, finals, rfl, hstaged, hready⟩ :=
    executableOperations_staged hmoves hexec
  refine ⟨directories ++ direct, stages, finals, cleanup,
    (candidates.filter (·.blocked)).map (·.operation), ⟨⟨?_, hstaged.stage, hstaged.final,
    hstaged.waits, fun op hop => ?_⟩, fun op hop => ?_, fun op hop => ?_, ?_⟩⟩
  · refine (Paired.of_noStage fun op hop => ?_).append hstaged.paired
    rw [(hemission.directories op hop).1]
    decide
  · rw [(hemission.cleanup op hop).1]
    decide
  · simp only [List.mem_append, or_assoc] at hop
    rcases hop with hop | hop | hop | hop | hop
    · exact (hemission.directories op hop).2
    · exact hready op (by simp [hop])
    · exact hready op (by simp [hop])
    · exact hready op (by simp [hop])
    · exact (hemission.cleanup op hop).2
  · obtain ⟨c, hc, rfl⟩ := List.mem_map.1 hop
    obtain ⟨hmem, hb⟩ := List.mem_filter.1 hc
    obtain ⟨index, asked, hp⟩ := hplanned c hmem
    exact hp.status_of_blocked hb
  · have hregroup : directories ++ (direct ++ stages ++ finals) ++ cleanup ++
        (candidates.filter (·.blocked)).map (·.operation) =
        directories ++ direct ++ stages ++ finals ++ cleanup ++
          (candidates.filter (·.blocked)).map (·.operation) := by simp only [List.append_assoc]
    rw [hstored, map_numbered, hregroup]

/-- No operation of a new plan is applied. -/
theorem StoredParts.not_applied {operations direct stages finals cleanup blocked :
    List ExecutionOperation} (h : StoredParts operations direct stages finals cleanup blocked) :
    ∀ op ∈ operations, op.status.isApplied = false := by
  intro op hop
  rw [h.numbered] at hop
  obtain ⟨index, hindex, rfl⟩ := List.mem_mapIdx.1 hop
  rcases List.mem_append.1 (List.getElem_mem hindex) with hmem | hmem
  · exact congrArg (·.isApplied) (h.ready _ hmem)
  · rcases h.excluded _ hmem with hb | hb
    · exact congrArg (·.isApplied) hb
    · exact congrArg (·.isApplied) hb

/-- **Every plan is staged**: what of it will be run are the directories and the moves in their
    order, with each stage of a pair directly before its final move, then the stages and the final
    moves of the cycles, then the cleanup. -/
theorem StoredParts.schedulable {operations direct stages finals cleanup blocked :
    List ExecutionOperation} (h : StoredParts operations direct stages finals cleanup blocked) :
    ∃ direct stages finals cleanup, Staged direct stages finals cleanup ∧
      Zemo.schedulable operations = direct ++ (stages ++ finals) ++ cleanup := by
  -- numbering keeps what matters of an operation
  have hnumbered : ∀ (offset index : ℕ) (op : ExecutionOperation), SameMove op
      { op with sequence := index + offset, postFingerprint := none } := fun _ _ _ =>
    ⟨rfl, rfl, rfl, rfl, rfl⟩
  refine ⟨_, _, _, _, h.staged.mapIdx (hnumbered 0) (hnumbered direct.length)
    (hnumbered (direct ++ stages).length) (hnumbered (direct ++ stages ++ finals).length), ?_⟩
  rw [h.numbered]
  refine schedulable_numbered (fun _ _ => rfl) h.ready fun op hop => ?_
  rcases h.excluded op hop with hb | hb <;> rw [hb] <;> decide

end Stored

end Zemo
