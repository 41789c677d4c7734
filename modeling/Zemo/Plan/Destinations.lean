import Zemo.Plan.Emitted

set_option autoImplicit false

/-! # No plan puts two files at one place

Of the candidates that are not blocked no two have one destination, whatever the letter case; the
passes after the collisions only block more of them, the order loses none and adds none, and every
staging path is compared with those before it. -/

namespace Zemo

open Checked

/-- The staging paths of operations. -/
def stagePaths (operations : List ExecutionOperation) : List RelPath :=
  (operations.filter (·.kind = .internalStage)).map (·.destinationRelativePath)

/-- Of operations that move files, no two put them at one place, nor stage them at one path. -/
def DistinctPlaces (policy : FilePolicy) (operations : List ExecutionOperation) : Prop :=
  operations.Pairwise fun a b => a.kind.isDirectory = false → b.kind.isDirectory = false →
    (a.kind = .internalStage ↔ b.kind = .internalStage) →
    policy.key a.destinationRelativePath ≠ policy.key b.destinationRelativePath

/-! ## Candidates -/

section Candidates

variable {planner : Planner} {tree : Tree} {candidates more : List PlannedCandidate}
  {reserved paths : List RelPath}

/-- The destinations of the candidates that are not blocked. -/
def openPlaces (planner : Planner) (candidates : List PlannedCandidate) : List PathKey :=
  (candidates.filter (!·.blocked)).map planner.destinationKey

theorem detectPlanCollisions_distinct (planner : Planner) (candidates : List PlannedCandidate) :
    (openPlaces planner (detectPlanCollisions planner candidates)).Nodup := by
  rw [List.nodup_iff_count_le_one]
  intro key
  by_contra hmany
  obtain ⟨found, hfound, hkey⟩ := List.mem_map.1 (List.count_pos_iff.1
    (Nat.zero_lt_of_lt (Nat.lt_of_not_le hmany)))
  obtain ⟨hmem, hopen⟩ := List.mem_filter.1 hfound
  obtain ⟨c, hc, rfl⟩ := List.mem_map.1 hmem
  -- the candidate was kept, so no other has its destination
  split_ifs at hopen hkey with hcollides
  · cases hopen
  · apply hmany
    rw [openPlaces, List.count_eq_countP, List.countP_map, List.countP_filter, detectPlanCollisions,
      List.countP_map]
    refine (List.countP_mono_left fun other _ hother => ?_).trans
      (Nat.le_of_not_lt fun hless => hcollides ⟨by simpa using hopen, hless⟩)
    simp only [Function.comp_apply, Bool.and_eq_true, beq_iff_eq] at hother
    split_ifs at hother
    · cases hother.2
    · simpa [hkey, and_comm] using hother

theorem Evolved.openPlaces_sublist (h : Evolved candidates more) :
    (openPlaces planner more).Sublist (openPlaces planner candidates) := by
  unfold Evolved at h
  induction h with
  | nil => exact List.Sublist.refl _
  | @cons a b as bs hab _ ih =>
      cases hb : b.blocked with
      | true =>
          rw [openPlaces, List.filter_cons_of_neg (by simp [hb])]
          refine ih.trans (List.Sublist.map _ (List.Sublist.filter _ (List.sublist_cons_self ..)))
      | false =>
          obtain ⟨ha, dependencies, rfl⟩ := hab.of_open hb
          rw [openPlaces, openPlaces, List.filter_cons_of_pos (by simp [hb]),
            List.filter_cons_of_pos (by simp [ha])]
          exact ih.cons_cons _

theorem planCandidates_distinct (proposal : OrganizationProposal) (volume : VolumeIdentity) :
    (openPlaces planner (planCandidates planner proposal tree volume)).Nodup :=
  (detectPlanCollisions_distinct planner _).sublist
    ((resolveDestinationDependencies_evolved planner tree _).trans
      (propagateFor_evolved _ _)).openPlaces_sublist

/-! ## Staging paths -/

theorem firstStagingPath_fresh {names : List String} {path : RelPath}
    (h : firstStagingPath planner tree reserved names = .ok path) :
    planner.files.key path ∉ reserved.map planner.files.key := by
  induction names with
  | nil => cases h
  | cons name rest ih =>
      simp only [firstStagingPath, bind_eq_ok] at h
      obtain ⟨key, hkey, h⟩ := h
      split at h
      · exact ih h
      · rename_i hfresh
        simp only [bind_eq_ok] at h
        obtain ⟨existing, -, h⟩ := h
        split at h
        · obtain rfl := Except.ok.inj h
          simp only [relativePath, bind_eq_ok] at hkey
          obtain ⟨_, -, hkey⟩ := hkey
          obtain rfl := Except.ok.inj hkey
          simpa using hfresh
        · exact ih h

/-- The paths in use after some stages, when they were distinct before. -/
structure StagesFresh (policy : FilePolicy) (reserved paths : List RelPath)
    (operations : List ExecutionOperation) : Prop where
  used : paths = reserved ++ stagePaths operations
  distinct : (reserved.map policy.key).Nodup → (paths.map policy.key).Nodup

theorem StagesFresh.append {between : List RelPath} {as bs : List ExecutionOperation}
    (ha : StagesFresh planner.files reserved between as)
    (hb : StagesFresh planner.files between paths bs) :
    StagesFresh planner.files reserved paths (as ++ bs) where
  used := by
    rw [hb.used, ha.used, stagePaths, stagePaths, stagePaths, List.filter_append, List.map_append,
      List.append_assoc]
  distinct := hb.distinct ∘ ha.distinct

theorem StagesFresh.cons {stage : ExecutionOperation} {operations : List ExecutionOperation}
    (hstage : stage.kind = .internalStage)
    (hfresh : planner.files.key stage.destinationRelativePath ∉ reserved.map planner.files.key)
    (h : StagesFresh planner.files (reserved ++ [stage.destinationRelativePath]) paths operations) :
    StagesFresh planner.files reserved paths (stage :: operations) where
  used := by
    rw [h.used, stagePaths, stagePaths, List.filter_cons_of_pos (by simp [hstage]), List.map_cons,
      List.append_assoc, List.singleton_append]
  distinct hreserved := h.distinct (by
    rw [List.map_append, List.nodup_append]
    refine ⟨hreserved, List.nodup_singleton _, fun a ha b hb hab => hfresh ?_⟩
    rwa [← List.mem_singleton.1 hb, ← hab])

theorem stageOrdered_places {operations : List ExecutionOperation}
    (hcandidates : ∀ c ∈ candidates, MovesFile c.operation)
    (h : stageOrdered planner tree candidates reserved = .ok (operations, paths)) :
    userDestinations operations = candidates.map (·.operation.destinationRelativePath) ∧
      StagesFresh planner.files reserved paths operations := by
  induction candidates generalizing reserved operations paths with
  | nil =>
      obtain ⟨rfl, rfl⟩ := Prod.mk.inj (Except.ok.inj h)
      exact ⟨rfl, (List.append_nil _).symm, id⟩
  | cons candidate rest ih =>
      obtain ⟨hhead, htail⟩ := List.forall_mem_cons.1 hcandidates
      have hmoves := hhead.notStage
      simp only [stageOrdered] at h
      split at h
      · simp only [bind_eq_ok] at h
        obtain ⟨source, -, path, hpath, ⟨ops, paths'⟩, hops, h⟩ := h
        obtain ⟨rfl, rfl⟩ := Prod.mk.inj (Except.ok.inj h)
        obtain ⟨hmoved, hfresh⟩ := ih htail hops
        refine ⟨?_, .cons rfl (firstStagingPath_fresh hpath) ⟨?_, hfresh.distinct⟩⟩
        · simpa [userDestinations, caseStage, stageOperation, caseFinal, hmoves] using hmoved
        · simpa [stagePaths, caseStage, stageOperation, caseFinal, hmoves] using hfresh.used
      · simp only [bind_eq_ok] at h
        obtain ⟨⟨ops, paths'⟩, hops, h⟩ := h
        obtain ⟨rfl, rfl⟩ := Prod.mk.inj (Except.ok.inj h)
        obtain ⟨hmoved, hfresh⟩ := ih htail hops
        refine ⟨?_, ?_, hfresh.distinct⟩
        · simpa [userDestinations, hmoves] using hmoved
        · simpa [stagePaths, hmoves] using hfresh.used

theorem stageCyclic_places {stages finals : List ExecutionOperation}
    (h : stageCyclic planner tree candidates reserved = .ok (stages, finals, paths)) :
    finals.map (·.destinationRelativePath) =
        candidates.map (·.operation.destinationRelativePath) ∧
      StagesFresh planner.files reserved paths stages := by
  induction candidates generalizing reserved stages finals paths with
  | nil =>
      obtain ⟨rfl, hrest⟩ := Prod.mk.inj (Except.ok.inj h)
      obtain ⟨rfl, rfl⟩ := Prod.mk.inj hrest
      exact ⟨rfl, (List.append_nil _).symm, id⟩
  | cons candidate rest ih =>
      simp only [stageCyclic, bind_eq_ok] at h
      obtain ⟨source, -, path, hpath, ⟨stages', finals', paths'⟩, hrest, heq⟩ := h
      obtain ⟨rfl, hpair⟩ := Prod.mk.inj (Except.ok.inj heq)
      obtain ⟨rfl, rfl⟩ := Prod.mk.inj hpair
      obtain ⟨hmoved, hfresh⟩ := ih hrest
      exact ⟨congrArg _ hmoved, .cons rfl (firstStagingPath_fresh hpath) hfresh⟩

theorem executableOperations_places {executable : List ExecutionOperation}
    (hcandidates : ∀ c ∈ candidates, c.blocked = false → MovesFile c.operation)
    (h : executableOperations planner tree candidates = .ok (executable, paths)) :
    (userDestinations executable).Perm
        ((candidates.filter (!·.blocked)).map (·.operation.destinationRelativePath)) ∧
      StagesFresh planner.files [] paths executable := by
  simp only [executableOperations, bind_eq_ok] at h
  obtain ⟨⟨direct, reserved⟩, hdirect, ⟨stages, finals, paths'⟩, hcyclic, h⟩ := h
  obtain ⟨rfl, rfl⟩ := Prod.mk.inj (Except.ok.inj h)
  have hmoves : ∀ c, c ∈ (dependencyOrder planner candidates).1 ∨
      c ∈ (dependencyOrder planner candidates).2 → MovesFile c.operation := by
    intro c hc
    obtain ⟨hmem, hopen⟩ := mem_dependencyOrder hc
    exact hcandidates c hmem hopen
  obtain ⟨hdirectly, hfreshly⟩ := stageOrdered_places (fun c hc => hmoves c (.inl hc)) hdirect
  obtain ⟨hfinally, hfresh⟩ := stageCyclic_places hcyclic
  obtain ⟨hstage, hfinal, -⟩ := stageCyclic_stages (fun c hc => hmoves c (.inr hc)) hcyclic
  have hwaiting : ∀ ids : List OperationStepId, ∀ op ∈ finals.map fun op =>
      { op with dependencies := ids }, op.kind ≠ .internalStage := by
    intro ids op hop
    obtain ⟨final, hmem, rfl⟩ := List.mem_map.1 hop
    exact (hfinal final hmem).notStage
  have hnone : stages.filter (·.kind ≠ .internalStage) = [] :=
    List.filter_eq_nil_iff.2 fun op hop => by simp [(hstage op hop).1]
  constructor
  · have hperm := (@GreedyOrder.order_perm _ _ _ _ (orderRules planner)
      (candidates.filter fun c => !c.blocked)).map (·.operation.destinationRelativePath)
    rw [List.map_append] at hperm
    refine List.Perm.trans ?_ hperm
    rw [userDestinations, List.filter_append, List.filter_append, hnone, List.append_nil,
      List.filter_eq_self.2 fun op hop => decide_eq_true (hwaiting _ op hop), List.map_append,
      List.map_map]
    refine List.Perm.append (.of_eq hdirectly) ?_
    exact (List.Perm.of_eq hfinally).trans ((List.perm_insertionSort _ _).map _)
  · refine (hfreshly.append hfresh).append ⟨?_, id⟩
    rw [stagePaths, List.filter_eq_nil_iff.2 fun op hop => by simpa using hwaiting _ op hop]
    exact (List.append_nil _).symm

end Candidates

/-! ## Plans -/

section Plans

variable {planner : Planner} {context : PlanContext planner} {db : Database}

/-- The operation with its number, as it is stored. -/
def numberedAt (index : ℕ) (op : ExecutionOperation) : ExecutionOperation :=
  { op with sequence := index, postFingerprint := none }

/-- Of the stored operations those that are ready will be run. -/
theorem schedulable_numberedAt {ready excluded : List ExecutionOperation}
    (hready : ∀ op ∈ ready, op.status = .preflightOk)
    (hexcluded : ∀ op ∈ excluded, op.status ≠ .preflightOk) :
    schedulable ((ready ++ excluded).mapIdx numberedAt) = ready.mapIdx numberedAt := by
  have hnone : schedulable (excluded.mapIdx fun i => numberedAt (i + ready.length)) = [] :=
    schedulable_blocked (fun _ _ => rfl) hexcluded
  have hall : schedulable (ready.mapIdx numberedAt) = ready.mapIdx numberedAt :=
    schedulable_ready (fun _ _ => rfl) hready
  rw [List.mapIdx_append, schedulable_append, hnone, hall, List.append_nil]

/-- A plan: the operations that will be run, in their parts, then the excluded ones. -/
structure PlanParts (planner : Planner) (context : PlanContext planner) (db : Database)
    (directories executable cleanup : List ExecutionOperation) : Prop where
  moves : ∃ volume paths, executableOperations planner context.view.tree
    (planCandidates planner context.proposal context.view.tree volume) = .ok (executable, paths)
  aside : ∀ op ∈ directories ++ cleanup, op.kind.isDirectory = true ∧ op.dependencies = []
  stored : ∃ excluded, db.operations =
    (directories ++ executable ++ cleanup ++ excluded).mapIdx numberedAt
  runs : schedulable db.operations = (directories ++ executable ++ cleanup).mapIdx numberedAt

theorem planCandidates_movesFile {proposal : OrganizationProposal} {tree : Tree}
    {volume : VolumeIdentity} : ∀ c ∈ planCandidates planner proposal tree volume,
      c.blocked = false → MovesFile c.operation := by
  intro c hc hopen
  obtain ⟨index, asked, hp⟩ := planned_of_mem hc
  exact ⟨hp.moves.1, hp.moves.2, hp.status_of_open hopen⟩

theorem prepareExecution_planParts (h : prepareExecution planner context = .ok db) :
    ∃ directories executable cleanup,
      PlanParts planner context db directories executable cleanup := by
  obtain ⟨candidates, operations, ⟨volume, rfl⟩, ⟨count, hops⟩, hstored, -⟩ :=
    prepareExecution_plan h
  obtain ⟨executable, paths, directories, userCount, hexec, hdirectories, rfl⟩ :=
    planOperations_parts hops
  simp only [planDirectories, bind_eq_ok] at hdirectories
  obtain ⟨_, -, _, -, missing, -, hmissing⟩ := hdirectories
  obtain ⟨rfl, -⟩ := Prod.mk.inj (Except.ok.inj hmissing)
  obtain ⟨-, -, -, -, -, hready⟩ := executableOperations_staged planCandidates_movesFile hexec
  have haside : ∀ op, op ∈ missing.mapIdx (directoryOperation planner) ∨
      op ∈ planSourceDirectoryCleanup planner context.view executable
        (userDestinations executable) →
      (op.kind.isDirectory = true ∧ op.dependencies = []) ∧ op.status = .preflightOk := by
    rintro op (hop | hop)
    · obtain ⟨i, hi, rfl⟩ := List.mem_mapIdx.1 hop
      exact ⟨⟨rfl, rfl⟩, rfl⟩
    · obtain ⟨i, hi, rfl⟩ := List.mem_mapIdx.1 hop
      exact ⟨⟨rfl, rfl⟩, rfl⟩
  have hnumbered := hstored.trans map_numbered
  refine ⟨_, executable, _, ⟨volume, paths, hexec⟩, fun op hop =>
    (haside op (List.mem_append.1 hop)).1, ⟨_, hnumbered⟩, ?_⟩
  rw [hnumbered]
  refine schedulable_numberedAt (fun op hop => ?_) fun op hop => ?_
  · simp only [List.mem_append, or_assoc] at hop
    rcases hop with hop | hop | hop
    · exact (haside op (.inl hop)).2
    · exact hready op hop
    · exact (haside op (.inr hop)).2
  · obtain ⟨c, hc, rfl⟩ := List.mem_map.1 hop
    obtain ⟨hmem, hblocked⟩ := List.mem_filter.1 hc
    obtain ⟨index, asked, hp⟩ := planned_of_mem hmem
    rcases hp.status_of_blocked hblocked with hstatus | hstatus <;> simp [hstatus]

/-- **No plan puts two files at one place.** -/
theorem prepareExecution_distinctPlaces (h : prepareExecution planner context = .ok db) :
    DistinctPlaces planner.files (schedulable db.operations) := by
  obtain ⟨directories, executable, cleanup, ⟨volume, paths, hexec⟩, haside, -, hruns⟩ :=
    prepareExecution_planParts h
  obtain ⟨hplaces, hfresh⟩ := executableOperations_places planCandidates_movesFile hexec
  have hmoves : ((userDestinations executable).map planner.files.key).Nodup := by
    rw [(hplaces.map _).nodup_iff, List.map_map]
    exact planCandidates_distinct context.proposal volume
  have hstages := hfresh.distinct List.nodup_nil
  rw [hfresh.used, List.nil_append] at hstages
  simp only [userDestinations, stagePaths, List.Nodup, List.pairwise_map, List.pairwise_filter,
    decide_eq_true_eq] at hmoves hstages
  have hexecutable : DistinctPlaces planner.files executable :=
    (hmoves.and hstages).imp fun {a b} h ha hb hkinds => by
      by_cases hkind : a.kind = .internalStage
      · exact h.2 hkind (hkinds.1 hkind)
      · exact h.1 hkind (mt hkinds.2 hkind)
  have hparts : DistinctPlaces planner.files (directories ++ executable ++ cleanup) := by
    have hnone : ∀ ops ⊆ directories ++ cleanup, DistinctPlaces planner.files ops := fun ops hops =>
      List.pairwise_of_forall_mem_list fun a ha _ _ hfile => by simp [haside a (hops ha)] at hfile
    rw [DistinctPlaces, List.pairwise_append, List.pairwise_append]
    refine ⟨⟨hnone _ (List.subset_append_left ..), hexecutable, fun a ha b hb hfile => ?_⟩,
      hnone _ (List.subset_append_right ..), fun a ha b hb _ hfile => ?_⟩
    · simp [haside a (List.mem_append_left _ ha)] at hfile
    · simp [haside b (List.mem_append_right _ hb)] at hfile
  rw [hruns, DistinctPlaces, List.pairwise_iff_getElem]
  intro i j hi hj hij
  simp only [List.getElem_mapIdx]
  exact List.pairwise_iff_getElem.1 hparts i j _ _ hij

/-- Two files that change their names are staged at two paths. -/
theorem swapContext_distinctPlaces :
    (stagePaths (plannedRows swapContext).operations).length = 2 ∧
      DistinctPlaces samplePlanner.files (schedulable (plannedRows swapContext).operations) :=
  ⟨by decide, prepareExecution_distinctPlaces (prepareExecution_plannedRows (by decide))⟩

end Plans

end Zemo
