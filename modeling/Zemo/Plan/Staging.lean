import Zemo.Plan.Emitted

set_option autoImplicit false

/-! # What a plan puts into the staging area

The check of an absent destination keeps the staging area and the protected paths free unless it is
told that the path is internal. The callers tell it so wherever the text of a path starts with the
name of the staging directory, and a destination where something is found is not checked at all. -/

namespace Zemo

open Checked

/-! ## Calls of the check -/

/-- A call of `resolve_absent_destination`. -/
structure AbsentCall where
  path : RelPath
  internalStaging : Bool
deriving DecidableEq

def AbsentCall.check (policy : FilePolicy) (tree : Tree) (call : AbsentCall) :
    Except SafetyPolicyError Unit :=
  policy.resolveAbsentDestination tree call.path call.internalStaging

/-- The first component is the name of the staging directory, in any letter case. -/
def FilePolicy.InStaging (policy : FilePolicy) (path : RelPath) : Prop :=
  ∃ first, path.head? = some first ∧ policy.lower first = policy.lower stagingDirectoryName

/-- Only a path in the staging area is called internal. -/
def AbsentCall.Honest (policy : FilePolicy) (call : AbsentCall) : Prop :=
  call.internalStaging = true → policy.InStaging call.path

/-- The call in preflight. -/
def preflightCall (op : ExecutionOperation) : AbsentCall := ⟨op.destinationRelativePath, false⟩

/-- The call for a directory, before an operation, and for the source before a rollback. -/
def textCall (path : RelPath) : AbsentCall := ⟨path, startsWithStaging path⟩

/-! ## What is claimed of a plan -/

/-- The operation moves a file of the user, and will be run. -/
structure ExecutionOperation.MovesForUser (op : ExecutionOperation) : Prop where
  asked : op.proposalOperationId.isSome = true
  notStage : op.kind ≠ .internalStage
  ready : op.status = .preflightOk

/-- The files of the user stay out of the staging area, and no check is told otherwise. -/
structure StaysOut (policy : FilePolicy) (operations : List ExecutionOperation) : Prop where
  outside : ∀ op ∈ operations, op.MovesForUser → ¬policy.InStaging op.destinationRelativePath
  preflight : ∀ op ∈ operations, op.MovesForUser → (preflightCall op).Honest policy
  directories : ∀ op ∈ operations, op.kind = .createDirectory → op.status = .preflightOk →
    (textCall op.destinationRelativePath).Honest policy
  revalidation : ∀ op ∈ operations, op.MovesForUser →
    (textCall op.destinationRelativePath).Honest policy
  rollback : ∀ op ∈ operations, op.MovesForUser → ∀ source, op.sourceRelativePath = some source →
    (textCall source).Honest policy

/-- A destination that is not in the staging area under another spelling of its name, nor in the
    place of a file there, and paths whose first component is not a longer name. -/
structure KeepsOut (policy : FilePolicy) (tree : Tree) (op : ExecutionOperation) : Prop where
  spelled : policy.InStaging op.destinationRelativePath →
    op.destinationRelativePath.head? = some stagingDirectoryName
  absent : op.destinationRelativePath.head? = some stagingDirectoryName →
    tree.metadata (policy.key op.destinationRelativePath) = .error .notFound
  destination : startsWithStaging op.destinationRelativePath = true →
    policy.InStaging op.destinationRelativePath
  source : ∀ source, op.sourceRelativePath = some source → startsWithStaging source = true →
    policy.InStaging source

/-! ## Paths that begin alike -/

variable {policy : FilePolicy} {tree : Tree} {p q : RelPath}

theorem inStaging_of_head (h : p.head? = some stagingDirectoryName) : policy.InStaging p :=
  ⟨_, h, rfl⟩

theorem startsWithStaging_congr (h : p.head? = q.head?) :
    startsWithStaging p = startsWithStaging q := by
  cases p with
  | nil =>
      cases q with
      | nil => rfl
      | cons b q => simp at h
  | cons a p =>
      cases q with
      | nil => simp at h
      | cons b q =>
          obtain rfl : a = b := by simpa using h
          rfl

/-- Of two paths with one first component the calls are honest or not together. -/
theorem textCall_congr (h : p.head? = q.head?) (hq : (textCall q).Honest policy) :
    (textCall p).Honest policy := by
  intro hinternal
  obtain ⟨first, hfirst, hlower⟩ := hq ((startsWithStaging_congr h).symm.trans hinternal)
  exact ⟨first, h.trans hfirst, hlower⟩

/-- No path whose first component is the name of the staging directory passes as a user's. -/
theorem preflightCall_check {op : ExecutionOperation}
    (h : (preflightCall op).check policy tree = .ok ()) :
    op.destinationRelativePath.head? ≠ some stagingDirectoryName := by
  simp only [AbsentCall.check, preflightCall, FilePolicy.resolveAbsentDestination, bind_eq_ok,
    require_eq_ok, reduceCtorEq, false_or] at h
  obtain ⟨_, -, _, -, _, -, h⟩ := h
  exact h

/-! ## The calls are made -/

/-- The directories of a plan passed their check. -/
theorem missingDirectories_checked {planner : Planner} {paths missing : List RelPath}
    (h : missingDirectories planner tree paths = .ok missing) :
    ∀ path ∈ missing, path ∈ paths ∧ (textCall path).check planner.files tree = .ok () := by
  induction paths generalizing missing with
  | nil =>
      cases h
      simp
  | cons path rest ih =>
      simp only [missingDirectories, bind_eq_ok] at h
      obtain ⟨key, -, h⟩ := h
      split at h
      · intro found hfound
        obtain ⟨hmem, hcheck⟩ := ih h found hfound
        exact ⟨List.mem_cons_of_mem _ hmem, hcheck⟩
      · cases h
      · simp only [bind_eq_ok, raise_eq_ok] at h
        obtain ⟨_, hcheck, later, hlater, h⟩ := h
        cases h
        refine List.forall_mem_cons.2 ⟨⟨List.mem_cons_self .., hcheck⟩, fun found hfound => ?_⟩
        obtain ⟨hmem, hcheck⟩ := ih hlater found hfound
        exact ⟨List.mem_cons_of_mem _ hmem, hcheck⟩
      · cases h

/-! ## Which candidates passed the check -/

section Vetted

variable (planner : Planner)

/-- A candidate with nothing at its destination passed the check. -/
def Vetted (tree : Tree) (c : PlannedCandidate) : Prop :=
  c.blocked = false → tree.metadata (planner.destinationKey c) = .error .notFound →
    (preflightCall c.operation).check planner.files tree = .ok ()

variable {planner} {open_ : List Bool} {indexes : List Nat} {index : Nat}
  {candidates : List PlannedCandidate} {a c : PlannedCandidate}

theorem PlannedCandidate.Evolves.vetted (h : a.Evolves c) (ha : Vetted planner tree a) :
    Vetted planner tree c := by
  intro hopen
  obtain ⟨hbefore, dependencies, rfl⟩ := h.of_open hopen
  exact ha hbefore

/-- Where nothing is at the destination, the verdict comes from the check. -/
theorem destinationVerdict_absent
    (habsent : tree.metadata (planner.destinationKey a) = .error .notFound)
    (hfree : ∀ why, destinationVerdict planner tree candidates open_ index a ≠ .blocked why) :
    (preflightCall a.operation).check planner.files tree = .ok () := by
  have hexisting : caseInsensitiveExisting tree
      (planner.files.key a.operation.destinationRelativePath) = .ok false := by
    unfold caseInsensitiveExisting
    rw [show tree.metadata (planner.files.key a.operation.destinationRelativePath) =
      .error .notFound from habsent]
  unfold destinationVerdict at hfree
  dsimp only at hfree
  rw [hexisting] at hfree
  dsimp only at hfree
  split at hfree
  · exact absurd rfl (hfree _)
  · split at hfree
    · assumption
    · exact absurd rfl (hfree _)

theorem settle_vetted (hopen : a.blocked = false) :
    Vetted planner tree
      (a.settle (destinationVerdict planner tree candidates open_ index a)) := by
  intro hsettled habsent
  have hdestination := (PlannedCandidate.Evolves.settle hopen
    (destinationVerdict planner tree candidates open_ index a)).destination
  rw [Planner.destinationKey, hdestination] at habsent
  rw [preflightCall, hdestination]
  refine @destinationVerdict_absent tree planner open_ index candidates a habsent fun why hwhy => ?_
  rw [hwhy] at hsettled
  cases hsettled

theorem resolveAt_vetted (h : (resolveAt planner tree open_ candidates index)[index]? = some c) :
    Vetted planner tree c := by
  unfold resolveAt at h
  cases hget : candidates[index]? with
  | none =>
      rw [hget] at h
      dsimp only at h
      rw [hget] at h
      cases h
  | some a =>
      rw [hget] at h
      dsimp only at h
      split at h
      · rename_i hblocked
        obtain rfl : a = c := by simpa [hget] using h
        intro hopen
        rw [hopen] at hblocked
        cases hblocked
      · rename_i hopen
        have hindex : index < candidates.length := (List.getElem?_eq_some_iff.1 hget).1
        rw [List.getElem?_set_self hindex] at h
        cases h
        exact settle_vetted (by simpa using hopen)

/-- At an index that was visited the candidate is vetted, for later visits only evolve it. -/
theorem foldl_resolveAt_vetted (hindex : index ∈ indexes)
    (h : (indexes.foldl (resolveAt planner tree open_) candidates)[index]? = some c) :
    Vetted planner tree c := by
  induction indexes generalizing candidates with
  | nil => cases hindex
  | cons i rest ih =>
      by_cases hrest : index ∈ rest
      · exact ih hrest h
      · obtain rfl : index = i := (List.mem_cons.1 hindex).resolve_right hrest
        obtain ⟨a, ha, hevolves⟩ := (foldl_resolveAt_evolved planner tree open_ rest _).of_get h
        exact hevolves.vetted (resolveAt_vetted ha)

theorem planCandidates_vetted {proposal : OrganizationProposal} {volume : VolumeIdentity}
    (h : c ∈ planCandidates planner proposal tree volume) : Vetted planner tree c := by
  obtain ⟨index, hindex, hget⟩ := List.getElem_of_mem h
  obtain ⟨a, ha, hevolves⟩ :=
    (propagateFor_evolved _ _).of_get ((List.getElem?_eq_getElem hindex).trans (congrArg some hget))
  have hlength := (List.getElem?_eq_some_iff.1 ha).1
  rw [← (resolveDestinationDependencies_evolved planner tree _).length_eq] at hlength
  exact hevolves.vetted (foldl_resolveAt_vetted (List.mem_range.2 hlength) ha)

end Vetted

/-! ## Where the operations come from -/

section Origin

variable {planner : Planner} {reserved paths : List RelPath} {candidates : List PlannedCandidate}

/-- The first component of every path is the name of the staging directory. -/
def AllStaging (paths : List RelPath) : Prop :=
  ∀ path ∈ paths, path.head? = some stagingDirectoryName

theorem AllStaging.concat (h : AllStaging paths) (hp : p.head? = some stagingDirectoryName) :
    AllStaging (paths ++ [p]) := by
  intro path hpath
  rcases List.mem_append.1 hpath with hmem | hmem
  · exact h path hmem
  · rwa [List.mem_singleton.1 hmem]

theorem firstStagingPath_head {names : List String} {path : RelPath}
    (h : firstStagingPath planner tree reserved names = .ok path) :
    path.head? = some stagingDirectoryName := by
  induction names with
  | nil => cases h
  | cons name rest ih =>
      simp only [firstStagingPath, bind_eq_ok] at h
      obtain ⟨key, -, h⟩ := h
      split at h
      · exact ih h
      · simp only [bind_eq_ok] at h
        obtain ⟨existing, -, h⟩ := h
        split at h
        · cases h
          rfl
        · exact ih h

/-- An operation that moves a file is a stage, or it goes where a candidate goes. -/
inductive Origin (candidates : List PlannedCandidate) (op : ExecutionOperation) : Prop
  | stage (hkind : op.kind = .internalStage)
      (hpath : op.destinationRelativePath.head? = some stagingDirectoryName)
  | candidate (c : PlannedCandidate) (hc : c ∈ candidates) (hkind : op.kind = c.operation.kind)
      (hproposal : op.proposalOperationId = c.operation.proposalOperationId)
      (hdestination : op.destinationRelativePath = c.operation.destinationRelativePath)
      (hstatus : op.status = c.operation.status)

theorem Origin.mono {op : ExecutionOperation} {more : List PlannedCandidate}
    (h : Origin candidates op) (hsub : ∀ c ∈ candidates, c ∈ more) : Origin more op := by
  cases h with
  | stage hkind hpath => exact .stage hkind hpath
  | candidate c hc hkind hproposal hdestination hstatus =>
      exact .candidate c (hsub c hc) hkind hproposal hdestination hstatus

theorem stageOrdered_origin {operations : List ExecutionOperation} (hreserved : AllStaging reserved)
    (h : stageOrdered planner tree candidates reserved = .ok (operations, paths)) :
    (∀ op ∈ operations, Origin candidates op) ∧ AllStaging paths := by
  induction candidates generalizing reserved operations paths with
  | nil =>
      obtain ⟨rfl, rfl⟩ := Prod.mk.inj (Except.ok.inj h)
      exact ⟨by simp, hreserved⟩
  | cons candidate rest ih =>
      have hself := List.mem_cons_self (a := candidate) (l := rest)
      have htail (op : ExecutionOperation) (hop : Origin rest op) :
          Origin (candidate :: rest) op := hop.mono fun c hc => List.mem_cons_of_mem _ hc
      simp only [stageOrdered] at h
      split at h
      · simp only [bind_eq_ok] at h
        obtain ⟨source, -, path, hpath, ⟨ops, paths'⟩, hrest, h⟩ := h
        obtain ⟨rfl, rfl⟩ := Prod.mk.inj (Except.ok.inj h)
        have hhead := firstStagingPath_head hpath
        obtain ⟨horigin, hpaths⟩ := ih (hreserved.concat hhead) hrest
        refine ⟨?_, hpaths⟩
        intro op hop
        rcases List.mem_cons.1 hop with rfl | hop
        · exact .stage rfl hhead
        · rcases List.mem_cons.1 hop with rfl | hop
          · exact .candidate candidate hself rfl rfl rfl rfl
          · exact htail op (horigin op hop)
      · simp only [bind_eq_ok] at h
        obtain ⟨⟨ops, paths'⟩, hrest, h⟩ := h
        obtain ⟨rfl, rfl⟩ := Prod.mk.inj (Except.ok.inj h)
        obtain ⟨horigin, hpaths⟩ := ih hreserved hrest
        exact ⟨List.forall_mem_cons.2 ⟨.candidate candidate hself rfl rfl rfl rfl,
          fun op hop => htail op (horigin op hop)⟩, hpaths⟩

theorem stageCyclic_origin {stages finals : List ExecutionOperation}
    (hreserved : AllStaging reserved)
    (h : stageCyclic planner tree candidates reserved = .ok (stages, finals, paths)) :
    (∀ op ∈ stages, Origin candidates op) ∧ (∀ op ∈ finals, Origin candidates op) ∧
      AllStaging paths := by
  induction candidates generalizing reserved stages finals paths with
  | nil =>
      obtain ⟨rfl, hrest⟩ := Prod.mk.inj (Except.ok.inj h)
      obtain ⟨rfl, rfl⟩ := Prod.mk.inj hrest
      exact ⟨by simp, by simp, hreserved⟩
  | cons candidate rest ih =>
      have htail (op : ExecutionOperation) (hop : Origin rest op) :
          Origin (candidate :: rest) op := hop.mono fun c hc => List.mem_cons_of_mem _ hc
      simp only [stageCyclic, bind_eq_ok] at h
      obtain ⟨source, -, path, hpath, ⟨stages', finals', paths'⟩, hrest, heq⟩ := h
      simp only [pure, Except.pure, Except.ok.injEq, Prod.mk.injEq] at heq
      obtain ⟨rfl, rfl, rfl⟩ := heq
      have hhead := firstStagingPath_head hpath
      obtain ⟨hstages, hfinals, hpaths⟩ := ih (hreserved.concat hhead) hrest
      exact ⟨List.forall_mem_cons.2 ⟨.stage rfl hhead, fun op hop => htail op (hstages op hop)⟩,
        List.forall_mem_cons.2 ⟨.candidate candidate (List.mem_cons_self ..) rfl rfl rfl rfl,
          fun op hop => htail op (hfinals op hop)⟩, hpaths⟩

theorem executableOperations_origin {executable : List ExecutionOperation}
    (h : executableOperations planner tree candidates = .ok (executable, paths)) :
    (∀ op ∈ executable, Origin (candidates.filter (!·.blocked)) op) ∧ AllStaging paths := by
  simp only [executableOperations, bind_eq_ok] at h
  obtain ⟨⟨direct, reserved⟩, hdirect, ⟨stages, finals, paths'⟩, hcyclic, h⟩ := h
  obtain ⟨rfl, rfl⟩ := Prod.mk.inj (Except.ok.inj h)
  have hopen (c : PlannedCandidate) (hc : c ∈ (dependencyOrder planner candidates).1 ∨
      c ∈ (dependencyOrder planner candidates).2) : c ∈ candidates.filter (!·.blocked) := by
    simpa using mem_dependencyOrder hc
  obtain ⟨hordered, hreserved⟩ := stageOrdered_origin (by simp [AllStaging]) hdirect
  obtain ⟨hstages, hfinals, hpaths⟩ := stageCyclic_origin hreserved hcyclic
  refine ⟨fun op hop => ?_, hpaths⟩
  simp only [List.mem_append, List.mem_map] at hop
  rcases hop with (hop | hop) | ⟨final, hmem, rfl⟩
  · exact (hordered op hop).mono fun c hc => hopen c (.inl hc)
  · exact (hstages op hop).mono fun c hc => hopen c (.inr hc)
  · cases hfinals final hmem with
    | stage hkind hpath => exact .stage hkind hpath
    | candidate c hc hkind hproposal hdestination hstatus =>
        exact .candidate c (hopen c (.inr hc)) hkind hproposal hdestination hstatus

/-! ## Where the directories come from -/

theorem mem_insertPrefix {collected : List RelPath} (h : q ∈ insertPrefix planner collected p) :
    q ∈ collected ∨ q = p := by
  unfold insertPrefix at h
  split at h
  · obtain ⟨r, hr, heq⟩ := List.mem_map.1 h
    split at heq
    · exact .inr heq.symm
    · rw [← heq]
      exact .inl hr
  · simpa using h

theorem mem_foldl_insertPrefix {collected all : List RelPath}
    (h : q ∈ all.foldl (insertPrefix planner) collected) : q ∈ collected ∨ q ∈ all := by
  induction all generalizing collected with
  | nil => exact .inl h
  | cons p rest ih =>
      rcases ih h with hmem | hmem
      · exact (mem_insertPrefix hmem).imp_right fun heq => by
          rw [heq]
          exact List.mem_cons_self ..
      · exact .inr (List.mem_cons_of_mem _ hmem)

theorem head_properPrefixes (h : q ∈ properPrefixes p) : q.head? = p.head? := by
  simp only [properPrefixes, List.mem_filter, List.mem_inits, decide_eq_true_eq] at h
  obtain ⟨⟨rest, rfl⟩, hne, -⟩ := h
  cases q with
  | nil => exact absurd rfl hne
  | cons first q => rfl

/-- Every directory of a plan begins like a destination it is for. -/
theorem directoryPrefixes_head {destinations prefixes : List RelPath}
    (h : directoryPrefixes planner destinations = .ok prefixes) :
    ∀ path ∈ prefixes, ∃ destination ∈ destinations, path.head? = destination.head? := by
  simp only [directoryPrefixes, bind_eq_ok] at h
  obtain ⟨_, -, h⟩ := h
  cases h
  intro path hpath
  rw [List.mem_insertionSort] at hpath
  rcases mem_foldl_insertPrefix hpath with hmem | hmem
  · cases hmem
  · obtain ⟨destination, hdestination, hprefix⟩ := List.mem_flatMap.1 hmem
    exact ⟨destination, hdestination, head_properPrefixes hprefix⟩

theorem planDirectories_head {destinations userDestinations : List RelPath}
    {directories : List ExecutionOperation} {count : Nat}
    (h : planDirectories planner tree destinations userDestinations = .ok (directories, count)) :
    ∀ op ∈ directories, op.kind = .createDirectory ∧ op.proposalOperationId = none ∧
      ∃ destination ∈ destinations, op.destinationRelativePath.head? = destination.head? := by
  simp only [planDirectories, bind_eq_ok] at h
  obtain ⟨_, -, all, hall, missing, hmissing, h⟩ := h
  obtain ⟨rfl, -⟩ := Prod.mk.inj (Except.ok.inj h)
  intro op hop
  obtain ⟨i, hi, rfl⟩ := List.mem_mapIdx.1 hop
  have hmem := (missingDirectories_checked hmissing _ (List.getElem_mem hi)).1
  exact ⟨rfl, rfl, directoryPrefixes_head hall _ hmem⟩

end Origin

/-! ## The plan -/

section Plan

variable {planner : Planner} {context : PlanContext planner} {db : Database}

/-- What is stored of an operation of a plan. -/
def ExecutionOperation.stored (op : ExecutionOperation) (index : Nat) : ExecutionOperation :=
  { op with sequence := index, postFingerprint := none }

theorem ExecutionOperation.MovesForUser.stored {op : ExecutionOperation} (h : op.MovesForUser)
    (index : Nat) : (op.stored index).MovesForUser := ⟨h.asked, h.notStage, h.ready⟩

/-- What is known of the operations of a plan before they are stored, part by part. -/
structure Parts (planner : Planner) (tree : Tree)
    (directories executable cleanup blocked : List ExecutionOperation) : Prop where
  ofExecutable : ∀ op ∈ executable,
    (op.kind = .internalStage ∧ op.destinationRelativePath.head? = some stagingDirectoryName) ∨
    (op.MovesForUser ∧ op.kind.isDirectory = false ∧
      (tree.metadata (planner.files.key op.destinationRelativePath) = .error .notFound →
        (preflightCall op).check planner.files tree = .ok ()))
  ofDirectories : ∀ op ∈ directories, op.proposalOperationId = none ∧
    ∃ destination : RelPath, op.destinationRelativePath.head? = destination.head? ∧
      (destination.head? = some stagingDirectoryName ∨
        ∃ user ∈ executable, user.MovesForUser ∧ user.destinationRelativePath = destination)
  ofCleanup : ∀ op ∈ cleanup, op.kind = .removeDirectoryIfEmpty ∧ op.proposalOperationId = none
  ofBlocked : ∀ op ∈ blocked, op.status ≠ .preflightOk

/-- The operations of a plan that is stored. -/
def storedParts (directories executable cleanup blocked : List ExecutionOperation) :
    List ExecutionOperation :=
  (directories ++ executable ++ cleanup ++ blocked).mapIdx fun index op => op.stored index

/-- A candidate that is not blocked moves a file of the user. -/
theorem planCandidates_moves {volume : VolumeIdentity} {c : PlannedCandidate}
    (hc : c ∈ planCandidates planner context.proposal context.view.tree volume)
    (hopen : c.blocked = false) :
    c.operation.MovesForUser ∧ c.operation.kind.isDirectory = false := by
  obtain ⟨index, asked, hplanned⟩ := planned_of_mem hc
  obtain ⟨fingerprint, -, dependencies, hoperation⟩ := (hplanned.open_of hopen).checked
  refine ⟨⟨?_, hplanned.moves.1, hplanned.status_of_open hopen⟩, hplanned.moves.2⟩
  rw [hoperation]
  rfl

theorem prepareExecution_storedParts (h : prepareExecution planner context = .ok db) :
    ∃ directories executable cleanup blocked,
      Parts planner context.view.tree directories executable cleanup blocked ∧
        db.operations = storedParts directories executable cleanup blocked := by
  obtain ⟨candidates, operations, ⟨volume, rfl⟩, ⟨count, hops⟩, hstored, -⟩ :=
    prepareExecution_plan h
  obtain ⟨executable, paths, directories, userCount, hexec, hdirectories, rfl⟩ :=
    planOperations_parts hops
  obtain ⟨horigin, hpaths⟩ := executableOperations_origin hexec
  have hexecutable : ∀ op ∈ executable,
      (op.kind = .internalStage ∧ op.destinationRelativePath.head? = some stagingDirectoryName) ∨
      (op.MovesForUser ∧ op.kind.isDirectory = false ∧
        (context.view.tree.metadata (planner.files.key op.destinationRelativePath) =
          .error .notFound → (preflightCall op).check planner.files context.view.tree = .ok ())) := by
    intro op hop
    cases horigin op hop with
    | stage hkind hpath => exact .inl ⟨hkind, hpath⟩
    | candidate c hc hkind hproposal hdestination hstatus =>
        obtain ⟨hmem, hopen⟩ : _ ∧ c.blocked = false := by simpa using hc
        obtain ⟨hmoves, hfile⟩ := planCandidates_moves hmem hopen
        refine .inr ⟨⟨?_, ?_, ?_⟩, ?_, fun habsent => ?_⟩
        · rw [hproposal]
          exact hmoves.asked
        · rw [hkind]
          exact hmoves.notStage
        · rw [hstatus]
          exact hmoves.ready
        · rw [hkind]
          exact hfile
        · rw [hdestination] at habsent
          rw [preflightCall, hdestination]
          exact planCandidates_vetted hmem hopen habsent
  refine ⟨directories, executable,
    planSourceDirectoryCleanup planner context.view executable (userDestinations executable),
    ((planCandidates planner context.proposal context.view.tree volume).filter (·.blocked)).map
      (·.operation), ⟨hexecutable, fun op hop => ?_, fun op hop => ?_,
    fun op hop => ?_⟩, ?_⟩
  · obtain ⟨-, hnone, destination, hmem, hhead⟩ := planDirectories_head hdirectories op hop
    refine ⟨hnone, destination, hhead, ?_⟩
    rcases List.mem_append.1 hmem with hmem | hmem
    · obtain ⟨user, huser, rfl⟩ := List.mem_map.1 hmem
      obtain ⟨huser, hkind⟩ := List.mem_filter.1 huser
      rcases hexecutable user huser with ⟨hstage, -⟩ | ⟨hmoves, -⟩
      · simp [hstage] at hkind
      · exact .inr ⟨user, huser, hmoves, rfl⟩
    · exact .inl (hpaths destination hmem)
  · obtain ⟨i, hi, rfl⟩ := List.mem_mapIdx.1 hop
    exact ⟨rfl, rfl⟩
  · obtain ⟨c, hc, rfl⟩ := List.mem_map.1 hop
    obtain ⟨hmem, hblocked⟩ := List.mem_filter.1 hc
    obtain ⟨index, asked, hplanned⟩ := planned_of_mem hmem
    rcases hplanned.status_of_blocked hblocked with hstatus | hstatus
    · simp [hstatus]
    · simp [hstatus]
  · rw [hstored, map_numbered]
    rfl

variable {directories executable cleanup blocked : List ExecutionOperation}

theorem mem_storedParts {op : ExecutionOperation}
    (h : op ∈ storedParts directories executable cleanup blocked) : ∃ before index,
      op = before.stored index ∧ (before ∈ directories ∨ before ∈ executable ∨
        before ∈ cleanup ∨ before ∈ blocked) := by
  obtain ⟨index, hindex, rfl⟩ := List.mem_mapIdx.1 h
  have hmem := List.getElem_mem hindex
  simp only [List.mem_append, or_assoc] at hmem
  exact ⟨_, index, rfl, hmem⟩

theorem stored_of_executable {op : ExecutionOperation} (h : op ∈ executable) :
    ∃ index, op.stored index ∈ storedParts directories executable cleanup blocked := by
  have hmem : op ∈ directories ++ executable ++ cleanup ++ blocked := by simp [h]
  obtain ⟨index, hindex, hget⟩ := List.getElem_of_mem hmem
  exact ⟨index, List.mem_mapIdx.2 ⟨index, hindex, by rw [hget]⟩⟩

/-- An operation that moves a file of the user is one of the executable ones. -/
theorem Parts.executable_of_moves {op : ExecutionOperation}
    (h : Parts planner context.view.tree directories executable cleanup blocked)
    (hop : op ∈ storedParts directories executable cleanup blocked) (hmoves : op.MovesForUser) :
    ∃ before ∈ executable, ∃ index, op = before.stored index := by
  obtain ⟨before, index, rfl, hpart⟩ := mem_storedParts hop
  have hasked : before.proposalOperationId.isSome = true := hmoves.asked
  rcases hpart with hmem | hmem | hmem | hmem
  · rw [(h.ofDirectories before hmem).1] at hasked
    cases hasked
  · exact ⟨before, hmem, index, rfl⟩
  · rw [(h.ofCleanup before hmem).2] at hasked
    cases hasked
  · exact absurd hmoves.ready (h.ofBlocked before hmem)

/-- **The plans that stay out of the staging area**: exactly those whose moves go to no other
spelling of its name and to no occupied place in it, and neither come from nor go to a directory
with a longer name. -/
theorem prepareExecution_staysOut_iff (h : prepareExecution planner context = .ok db) :
    StaysOut planner.files db.operations ↔
      ∀ op ∈ db.operations, op.MovesForUser → KeepsOut planner.files context.view.tree op := by
  obtain ⟨directories, executable, cleanup, blocked, hparts, hstored⟩ :=
    prepareExecution_storedParts h
  constructor
  · intro hout op hop hmoves
    have houtside := hout.outside op hop hmoves
    exact ⟨fun hin => absurd hin houtside, fun hhead => absurd (inStaging_of_head hhead) houtside,
      hout.revalidation op hop hmoves, hout.rollback op hop hmoves⟩
  · intro hkeeps
    refine ⟨fun op hop hmoves hin => ?_, fun op _ _ hinternal => ?_, fun op hop hkind hready => ?_,
      fun op hop hmoves => (hkeeps op hop hmoves).destination,
      fun op hop hmoves => (hkeeps op hop hmoves).source⟩
    · -- what is in the staging area was checked in preflight, and the check refuses it
      have hkeep := hkeeps op hop hmoves
      have hexact := hkeep.spelled hin
      have habsent := hkeep.absent hexact
      rw [hstored] at hop
      obtain ⟨before, hbefore, index, rfl⟩ := hparts.executable_of_moves hop hmoves
      rcases hparts.ofExecutable before hbefore with ⟨hstage, -⟩ | ⟨-, -, hchecked⟩
      · exact hmoves.notStage hstage
      · exact preflightCall_check (hchecked habsent) hexact
    · cases hinternal
    · rw [hstored] at hop
      obtain ⟨before, index, rfl, hpart⟩ := mem_storedParts hop
      change before.kind = _ at hkind
      rcases hpart with hmem | hmem | hmem | hmem
      · obtain ⟨-, destination, hhead, hdestination⟩ := hparts.ofDirectories before hmem
        refine @textCall_congr _ before.destinationRelativePath destination hhead ?_
        rcases hdestination with hstaging | ⟨user, huser, hmoves, rfl⟩
        · exact fun _ => inStaging_of_head hstaging
        · obtain ⟨index, hindex⟩ := stored_of_executable huser
          exact (hkeeps _ (hstored ▸ hindex) (hmoves.stored index)).destination
      · rcases hparts.ofExecutable before hmem with ⟨hstage, -⟩ | ⟨-, hfile, -⟩
        · rw [hstage] at hkind
          cases hkind
        · rw [hkind] at hfile
          cases hfile
      · rw [(hparts.ofCleanup before hmem).1] at hkind
        cases hkind
      · exact absurd hready (hparts.ofBlocked before hmem)

end Plan

/-! ## Plans that do and plans that do not -/

theorem swapContext_staysOut_iff :
    (prepareExecution samplePlanner swapContext).isOk = true ∧
    (StaysOut samplePlanner.files (plannedRows swapContext).operations ↔
      ∀ op ∈ (plannedRows swapContext).operations, op.MovesForUser →
        KeepsOut samplePlanner.files swapContext.view.tree op) :=
  ⟨by decide, prepareExecution_staysOut_iff (prepareExecution_plannedRows (by decide))⟩

/-- A file goes to a directory of the user whose name is longer than the staging directory's. -/
def longerContext : PlanContext samplePlanner :=
  samplePlanContext (rootView [("a", sampleFingerprint)] (by decide))
    [sampleProposalOperation 1 "a" [".supremacy-staging-old"] "a"]

/-- The directory of the user is made, and the file moved, as if both were internal. -/
theorem longerContext_not_staysOut :
    (prepareExecution samplePlanner longerContext).isOk = true ∧
      ¬StaysOut samplePlanner.files (plannedRows longerContext).operations := by
  have hdirectory : ∃ op ∈ (plannedRows longerContext).operations, op.kind = .createDirectory ∧
      op.status = .preflightOk ∧ op.destinationRelativePath = [".supremacy-staging-old"] := by decide
  refine ⟨by decide, fun hout => ?_⟩
  obtain ⟨op, hop, hkind, hready, hpath⟩ := hdirectory
  have hhonest := hout.directories op hop hkind hready
  rw [hpath] at hhonest
  obtain ⟨first, hfirst, hlower⟩ := hhonest (by decide)
  obtain rfl : ".supremacy-staging-old" = first := by simpa [textCall] using hfirst
  revert hlower
  decide

end Zemo
