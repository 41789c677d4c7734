import Zemo.Simulation.Places

set_option autoImplicit false

/-! # What a sealed plan contains

A plan is compiled from a simulation, which plans the folders of every item that was not rejected.
The plan takes the moves of the accepted items only, but all of the folders. It contains nothing but
the accepted part exactly when every folder on the way of another item exists or is also on the way
of an accepted one; a revision that may be sealed has no other items that move. -/

namespace Zemo.Simulation

variable {mapping : CaseMapping} {vfs : VirtualFileSystem} {files : List SimulationFile}
  {proposal : ProposalRevision} {outcome : SimulationOutcome} {context : SealContext}
  {plan : SealedPlan} {now : Int}

/-! ## Integrity -/

inductive PlanIntegrityError where
  | digestMismatch
  | unsafeStructure
deriving DecidableEq, Repr

/-- The draft a plan says it was sealed from. -/
def SealedPlan.draft (plan : SealedPlan) : PlanDraft where
  id := plan.id
  workspaceId := plan.workspaceId
  proposalId := plan.proposalId
  proposalDigest := plan.proposalDigest
  steps := plan.steps
  createdAtUnixMs := plan.sealedAtUnixMs

/-- `SealedPlan::verify_integrity`. -/
def SealedPlan.verifyIntegrity (context : SealContext) (plan : SealedPlan) :
    Except PlanIntegrityError Unit :=
  if context.planDigest plan.draft ≠ plan.digest then .error .digestMismatch
  else if plan.steps = [] ∨ (plan.steps.any fun step => !step.isSafeAndReversible) = true then
    .error .unsafeStructure
  else .ok ()

/-- What is sealed verifies. -/
theorem PlanDraft.seal_verifyIntegrity {draft : PlanDraft} {digest : Bytes32}
    (h : draft.seal context digest = .ok plan) : plan.verifyIntegrity context = .ok () := by
  unfold PlanDraft.seal at h
  split at h
  · cases h
  · split at h
    · cases h
    · next hne =>
      split at h
      · cases h
      · next hsafe =>
        obtain rfl := Except.ok.inj h
        simp [SealedPlan.verifyIntegrity, SealedPlan.draft, hne, hsafe]

theorem compilePlan_verifyIntegrity (h : compilePlan context proposal outcome = .ok plan) :
    plan.verifyIntegrity context = .ok () := by
  unfold compilePlan at h
  dsimp only at h
  split at h
  · cases h
  · split at h
    · next hsealed =>
      obtain rfl := Except.ok.inj h
      exact PlanDraft.seal_verifyIntegrity hsealed
    · cases h

/-! ## The promise -/

/-- The simulated moves of the accepted items. -/
def acceptedMoves (proposal : ProposalRevision) (outcome : SimulationOutcome) :
    List PlannedMove :=
  outcome.moves.filter fun move => (acceptedItem proposal.items move.itemId).isSome

/-- Where a move goes. -/
def PlannedMove.place (mapping : CaseMapping) (move : PlannedMove) : Option (RootId × PathKey) :=
  nativePlace mapping move.destinationRootId move.destinationPath

/-- The folder is a proper ancestor of the destination. -/
structure Above (folder destination : RootId × PathKey) : Prop where
  root : folder.1 = destination.1
  named : folder.2 ≠ []
  start : folder.2 <+: destination.2
  proper : folder.2 ≠ destination.2

/-- The step renames what the move moves. -/
structure Renames (step : OperationStep) (move : PlannedMove) : Prop where
  item : step.proposalItemId = some move.itemId
  source : step.sourceRootId = some move.sourceRootId ∧ step.sourcePath = some move.sourcePath
  destination : step.destinationRootId = some move.destinationRootId
    ∧ step.destinationPath = some move.destinationPath

/-- The folder of the step is above the destination of the move. -/
def LeadsTo (mapping : CaseMapping) (step : OperationStep) (move : PlannedMove) : Prop :=
  ∃ rootId path, step.destinationRootId = some rootId ∧ step.destinationPath = some path
    ∧ ∃ folder ∈ nativePlace mapping rootId path, ∃ destination ∈ move.place mapping,
      Above folder destination

/-- The plan contains exactly the accepted part of the simulation: one rename for each accepted
    move, in their order, and only directories on the way of these. -/
structure ExactlyAccepted (mapping : CaseMapping) (context : SealContext)
    (proposal : ProposalRevision) (outcome : SimulationOutcome) (plan : SealedPlan) : Prop where
  renames : List.Forall₂ Renames
    (plan.steps.filter fun step => step.kind = .renameEntrySameVolume)
    (acceptedMoves proposal outcome)
  directories : ∀ step ∈ plan.steps, step.kind = .createDirectory →
    ∃ move ∈ acceptedMoves proposal outcome, LeadsTo mapping step move
  verifies : plan.verifyIntegrity context = .ok ()

/-- Every folder on the way of a move that is not accepted exists, or is on the way of one that
    is. -/
def FoldersShared (mapping : CaseMapping) (vfs : VirtualFileSystem) (proposal : ProposalRevision)
    (outcome : SimulationOutcome) : Prop :=
  ∀ move ∈ outcome.moves, acceptedItem proposal.items move.itemId = none →
    ∀ destination ∈ move.place mapping, ∀ folder, Above folder destination →
      (folder.1, joinComponents folder.2) ∈ vfs.existingDirectories
        ∨ ∃ other ∈ acceptedMoves proposal outcome, ∃ place ∈ other.place mapping,
          Above folder place

/-! ## What was simulated -/

/-- These are the plans of the moves of a simulation. -/
structure PlannedBy (mapping : CaseMapping) (vfs : VirtualFileSystem)
    (files : List SimulationFile) (items : List ProposalItem) (state final : SimulationState)
    (plans : List Planned) : Prop where
  items : (plans.map (·.item)).Sublist items
  found : ∀ planned ∈ plans, planned.Found files
  moves : final.moves = state.moves ++ plans.map (·.move)
  directories : final.directories = state.directories
    ++ (newDirectories mapping vfs.existingDirectories state.plannedDirectories
      (plans.flatMap (·.requests))).map FolderRequest.directory

/-- Every move of a simulation was planned for an item, with blocked items or without. -/
theorem simulate_plannedBy {items : List ProposalItem} {state final : SimulationState}
    (h : items.foldlM (simulateItem vfs mapping files) state = .ok final) :
    ∃ plans, PlannedBy mapping vfs files items state final plans := by
  induction items generalizing state with
  | nil =>
    obtain rfl := Except.ok.inj h
    exact ⟨[], List.Sublist.refl _, by simp, by simp, by simp [newDirectories]⟩
  | cons item items ih =>
    rw [List.foldlM_cons] at h
    obtain ⟨next, hitem, hrest⟩ := Checked.bind_eq_ok.1 h
    obtain ⟨plans, hplans⟩ := ih hrest
    rcases simulateItem_cases hitem with ⟨-, rfl⟩ | hblocks | ⟨planned, rfl, hfound, hplanned, -⟩
    · exact ⟨plans, hplans.items.cons _, hplans.found, hplans.moves, hplans.directories⟩
    · refine ⟨plans, hplans.items.cons _, hplans.found, ?_, ?_⟩
      · rw [hplans.moves, hblocks.moves]
      · rw [hplans.directories, hblocks.directories, hblocks.seen]
    · refine ⟨planned :: plans, hplans.items.cons_cons _, ?_, ?_, ?_⟩
      · exact List.forall_mem_cons.2 ⟨hfound, hplans.found⟩
      · rw [hplans.moves, hplanned.moves, List.append_assoc]
        rfl
      · rw [hplans.directories, hplanned.directories, hplanned.seen, List.flatMap_cons,
          newDirectories_append, List.map_append, List.append_assoc]

/-- The plans of a whole simulation. -/
theorem exists_plannedBy {digestOf : ProposalRevision → Bytes32}
    (h : vfs.simulate mapping digestOf proposal files now = .ok outcome) :
    ∃ plans : List Planned, (plans.map (·.item)).Sublist proposal.items
      ∧ (∀ planned ∈ plans, planned.Found files) ∧ outcome.moves = plans.map (·.move)
      ∧ outcome.directories = (madeDirectories mapping vfs plans).map (·.directory) := by
  obtain ⟨final, hfinal, hreturn⟩ := Checked.bind_eq_ok.1 h
  obtain rfl := Except.ok.inj hreturn
  obtain ⟨plans, hplans⟩ := simulate_plannedBy hfinal
  exact ⟨plans, hplans.items, hplans.found, hplans.moves, hplans.directories⟩

/-! ## Steps -/

theorem directoryStep_mem {count : Nat} {directories : List PlannedDirectory}
    {step : OperationStep} (h : step ∈ directorySteps context count directories) :
    ∃ n, ∃ directory ∈ directories, step = directoryStep context n directory := by
  induction directories generalizing count with
  | nil => cases h
  | cons directory directories ih =>
    rcases List.mem_cons.1 h with rfl | h
    · exact ⟨count, directory, List.mem_cons_self .., rfl⟩
    · obtain ⟨n, other, hother, hstep⟩ := ih h
      exact ⟨n, other, List.mem_cons_of_mem _ hother, hstep⟩

variable (context) in
theorem exists_directoryStep (count : Nat) {directories : List PlannedDirectory}
    {directory : PlannedDirectory} (h : directory ∈ directories) :
    ∃ n, directoryStep context n directory ∈ directorySteps context count directories := by
  induction directories generalizing count with
  | nil => cases h
  | cons first directories ih =>
    rcases List.mem_cons.1 h with rfl | h
    · exact ⟨count, List.mem_cons_self ..⟩
    · obtain ⟨n, hn⟩ := ih (count + 1) h
      exact ⟨n, List.mem_cons_of_mem _ hn⟩

variable (context) in
/-- The steps for moves rename the accepted ones. -/
theorem moveSteps_renames (items : List ProposalItem) (moves : List PlannedMove)
    (count index : Nat) :
    (∀ step ∈ moveSteps context items count index moves, step.kind = .renameEntrySameVolume)
      ∧ List.Forall₂ Renames (moveSteps context items count index moves)
        (moves.filter fun move => (acceptedItem items move.itemId).isSome) := by
  induction moves generalizing count index with
  | nil => exact ⟨fun _ h => absurd h List.not_mem_nil, .nil⟩
  | cons move moves ih =>
    rw [moveSteps]
    cases hitem : acceptedItem items move.itemId with
    | none =>
      rw [List.filter_cons_of_neg (by simp [hitem])]
      exact ih count (index + 1)
    | some item =>
      rw [List.filter_cons_of_pos (by simp [hitem])]
      obtain ⟨hkind, hrenames⟩ := ih (count + 1) (index + 1)
      refine ⟨List.forall_mem_cons.2 ⟨rfl, hkind⟩, .cons ⟨?_, ⟨rfl, rfl⟩, rfl, rfl⟩ hrenames⟩
      obtain ⟨hfind, -⟩ := Option.filter_eq_some_iff.1 hitem
      have hid := List.find?_some hfind
      exact congrArg some (of_decide_eq_true hid)

/-! ## Folders -/

/-- Above the destination of a plan are the places of the folders on its way. -/
theorem above_place_iff {planned : Planned} {folder : RootId × PathKey} :
    Above folder (planned.place mapping) ↔
      ∃ path ∈ folderPrefixes planned.destination.folderComponents,
        folder = place mapping planned.destination.rootId path := by
  have hplace : (planned.place mapping).2
      = planned.destination.folderComponents.map mapping.lower
        ++ [mapping.lower planned.destination.fileName] := by
    simp [Planned.place, DestinationIntent.place, place, DestinationIntent.path, pathKey]
  constructor
  · rintro ⟨hroot, hnamed, hstart, hproper⟩
    rw [hplace] at hstart hproper
    have hfolders := (List.prefix_concat_iff.1 hstart).resolve_left hproper
    refine ⟨planned.destination.folderComponents.take folder.2.length, ?_, ?_⟩
    · refine mem_folderPrefixes.2 ⟨List.take_prefix _ _, fun hnil => hnamed ?_⟩
      have hlength := hfolders.length_le
      rw [List.length_map] at hlength
      have htake := congrArg List.length hnil
      rw [List.length_take_of_le hlength] at htake
      exact List.eq_nil_of_length_eq_zero htake
    · refine Prod.ext hroot ?_
      rw [place, pathKey, List.map_take]
      exact List.prefix_iff_eq_take.1 hfolders
  · rintro ⟨path, hpath, rfl⟩
    obtain ⟨hstart, hne⟩ := mem_folderPrefixes.1 hpath
    have hmap : path.map mapping.lower <+: planned.destination.folderComponents.map mapping.lower :=
      hstart.map _
    refine ⟨rfl, by simpa [place, pathKey] using hne, ?_, fun heq => ?_⟩
    · rw [hplace]
      exact hmap.trans (List.prefix_append _ _)
    · have hlength := congrArg List.length (heq.trans hplace)
      have hle := hmap.length_le
      simp only [place, pathKey, List.length_append, List.length_singleton] at hlength
      omega

/-- The key of a folder, from its place. -/
theorem key_eq_join {request : FolderRequest} (h : request.folder ≠ []) :
    request.key mapping
      = ((request.place mapping).1, joinComponents (request.place mapping).2) := by
  rw [FolderRequest.key, lower_joinComponents h]
  rfl

variable {plans : List Planned}

/-- The directories of the plan lead to accepted moves when every folder of another move exists or
    is on the way of one. -/
theorem directories_iff (hfound : ∀ planned ∈ plans, planned.Found files)
    (hmoves : outcome.moves = plans.map (·.move)) :
    (∀ request ∈ madeDirectories mapping vfs plans, ∃ move ∈ acceptedMoves proposal outcome,
        ∃ destination ∈ move.place mapping, Above (request.place mapping) destination)
      ↔ FoldersShared mapping vfs proposal outcome := by
  have hplace : ∀ planned ∈ plans, planned.move.place mapping = some (planned.place mapping) :=
    fun planned hplanned => (hfound planned hplanned).nativePlace_move
  constructor
  · intro hmade move hmove hunaccepted destination hdestination folder habove
    rw [hmoves] at hmove
    obtain ⟨planned, hplanned, rfl⟩ := List.mem_map.1 hmove
    rw [hplace planned hplanned] at hdestination
    obtain rfl := Option.some.inj hdestination
    obtain ⟨path, hpath, rfl⟩ := above_place_iff.1 habove
    obtain ⟨request, hrequest, hroot, hpathEq⟩ := exists_request hplanned hpath
    have hsame : place mapping planned.destination.rootId path = request.place mapping := by
      rw [FolderRequest.place, hroot, hpathEq]
    rw [hsame]
    obtain ⟨-, -, -, -, -, hseparated⟩ := planned_of_request hfound hrequest
    by_cases hexists : request.key mapping ∈ vfs.existingDirectories
    · left
      rwa [← key_eq_join hseparated.1]
    · right
      obtain ⟨made, hmadeMem, hkey⟩ := exists_newDirectory hrequest hexists
        (Finset.notMem_empty _)
      obtain ⟨-, -, -, -, -, hmadeSeparated⟩ :=
        planned_of_request hfound (mem_newDirectories hmadeMem).1
      have hplaces : made.place mapping = request.place mapping := by
        simp only [FolderRequest.key, Prod.mk.injEq,
          caseKey_inj hmadeSeparated hseparated] at hkey
        exact Prod.ext hkey.1 hkey.2
      rw [← hplaces]
      exact hmade made hmadeMem
  · intro hshared request hmade
    obtain ⟨hrequest, hnew, -⟩ := mem_newDirectories hmade
    obtain ⟨planned, hplanned, hroot, hfolder, -, hseparated⟩ :=
      planned_of_request hfound hrequest
    have hmem : planned.move ∈ outcome.moves := hmoves ▸ List.mem_map_of_mem hplanned
    have habove : Above (request.place mapping) (planned.place mapping) :=
      above_place_iff.2 ⟨request.folder, hfolder, by rw [FolderRequest.place, hroot]⟩
    cases haccepted : acceptedItem proposal.items planned.move.itemId with
    | none =>
      rcases hshared _ hmem haccepted _ (hplace planned hplanned) _ habove with hexists | hother
      · rw [← key_eq_join hseparated.1] at hexists
        exact absurd hexists hnew
      · exact hother
    | some item =>
      exact ⟨planned.move, List.mem_filter.2 ⟨hmem, by simp [haccepted]⟩, _,
        hplace planned hplanned, habove⟩

/-! ## The plan -/

/-- **A plan contains exactly the accepted part of its simulation when every folder on the way of
    another move exists or is on the way of an accepted one.** -/
theorem compilePlan_exactlyAccepted_iff {digestOf : ProposalRevision → Bytes32}
    (hsimulate : vfs.simulate mapping digestOf proposal files now = .ok outcome)
    (hplan : compilePlan context proposal outcome = .ok plan) :
    ExactlyAccepted mapping context proposal outcome plan
      ↔ FoldersShared mapping vfs proposal outcome := by
  obtain ⟨plans, -, hfound, hmoves, hdirectories⟩ := exists_plannedBy hsimulate
  rw [← directories_iff hfound hmoves]
  have hsteps := compilePlan_steps hplan
  have hnative : ∀ request ∈ madeDirectories mapping vfs plans,
      nativePlace mapping request.directory.rootId request.directory.path
        = some (request.place mapping) := by
    intro request hrequest
    obtain ⟨-, -, -, -, hplain, hseparated⟩ :=
      planned_of_request hfound (mem_newDirectories hrequest).1
    rw [nativePlace, FolderRequest.directory, resolveWithinRoot_encode hplain hseparated.1]
    rfl
  obtain ⟨hkind, hrenames⟩ := moveSteps_renames context proposal.items outcome.moves
    (directorySteps context 0 outcome.directories).length 0
  constructor
  · intro h request hrequest
    have hdirectory : request.directory ∈ outcome.directories :=
      hdirectories ▸ List.mem_map_of_mem hrequest
    obtain ⟨n, hstep⟩ := exists_directoryStep context 0 hdirectory
    obtain ⟨move, hmove, rootId, path, hroot, hpath, folder, hfolder, destination, hdestination,
      habove⟩ := h.directories _ (hsteps ▸ List.mem_append_left _ hstep) rfl
    obtain rfl := Option.some.inj hroot
    obtain rfl := Option.some.inj hpath
    rw [hnative request hrequest] at hfolder
    obtain rfl := Option.some.inj hfolder
    exact ⟨move, hmove, destination, hdestination, habove⟩
  · intro h
    refine ⟨?_, fun step hstep hcreate => ?_, compilePlan_verifyIntegrity hplan⟩
    · rw [hsteps, List.filter_append, List.filter_eq_nil_iff.2, List.nil_append,
        List.filter_eq_self.2]
      · exact hrenames
      · exact fun step hstep => decide_eq_true (hkind step hstep)
      · intro step hstep
        obtain ⟨n, directory, -, rfl⟩ := directoryStep_mem hstep
        simp [directoryStep]
    · rw [hsteps] at hstep
      rcases List.mem_append.1 hstep with hstep | hstep
      · obtain ⟨n, directory, hdirectory, rfl⟩ := directoryStep_mem hstep
        rw [hdirectories] at hdirectory
        obtain ⟨request, hrequest, rfl⟩ := List.mem_map.1 hdirectory
        obtain ⟨move, hmove, destination, hdestination, habove⟩ := h request hrequest
        exact ⟨move, hmove, _, _, rfl, rfl, _, hnative request hrequest, destination, hdestination,
          habove⟩
      · rw [hkind step hstep] at hcreate
        cases hcreate

/-! ## A folder nobody accepted -/

/-- One file goes into a folder, which is accepted, and another into another one, which is not. -/
private def twoFolders (first second : String) : ProposalRevision where
  id := 1
  workspaceId := 1
  baseScanId := 1
  revision := 1
  policyDigest := Bytes32.filled 0
  items := [{
    id := 1
    fileId := 1
    expectedFileVersionId := 1
    action := .move { rootId := 1, folderComponents := [first], fileName := "a" }
    reviewState := .accepted }, {
    id := 2
    fileId := 2
    expectedFileVersionId := 1
    action := .move { rootId := 1, folderComponents := [second], fileName := "b" }
    reviewState := .toReview }]
  createdAtUnixMs := 0

private def twoFiles : List SimulationFile :=
  [{ itemId := 1
     rootId := 1
     sourcePath := encodeNativePath "a" .windowsUtf16Le
     sourceDisplay := "a"
     fingerprint := { sampleFingerprint with
       volume := { sampleVolume with platform := .windows, filesystemType := some "NTFS" } } },
   { itemId := 2
     rootId := 1
     sourcePath := encodeNativePath "b" .windowsUtf16Le
     sourceDisplay := "b"
     fingerprint := { sampleFingerprint with
       volume := { sampleVolume with platform := .windows, filesystemType := some "NTFS" } } }]

private def twoContext : SealContext where
  digestOf := fun _ => Bytes32.filled 0
  planDigest := fun _ => Bytes32.filled 0
  newPlanId := 1
  newStepId := id

private def twoSimulated (first second : String) : Except SimulationError SimulationOutcome :=
  ({} : VirtualFileSystem).simulate asciiCase twoContext.digestOf (twoFolders first second) twoFiles 0

/-- The folder of the step is not on the way of the move. -/
private def leadsAway (step : OperationStep) (move : PlannedMove) : Bool :=
  step.destinationRootId.all fun rootId => step.destinationPath.all fun path =>
    (nativePlace asciiCase rootId path).all fun folder =>
      (move.place asciiCase).all fun destination => !decide (folder.2 <+: destination.2)

private theorem not_leadsTo {step : OperationStep} {move : PlannedMove}
    (h : leadsAway step move = true) : ¬LeadsTo asciiCase step move := by
  rintro ⟨rootId, path, hroot, hpath, folder, hfolder, destination, hdestination, habove⟩
  rw [Option.mem_def] at hfolder hdestination
  simp only [leadsAway, hroot, hpath, hfolder, hdestination, Option.all_some, habove.start,
    decide_true, Bool.not_true, Bool.false_eq_true] at h

/-- The folder of an item that is still to be reviewed is made by the sealed plan. -/
theorem compilePlan_not_exactlyAccepted :
    ∃ outcome plan, twoSimulated "Docs" "Photos" = .ok outcome
      ∧ compilePlan twoContext (twoFolders "Docs" "Photos") outcome = .ok plan
      ∧ ¬ExactlyAccepted asciiCase twoContext (twoFolders "Docs" "Photos") outcome plan := by
  obtain ⟨outcome, houtcome⟩ : ∃ outcome, twoSimulated "Docs" "Photos" = .ok outcome :=
    Checked.exists_of_isOk (by decide +kernel)
  have hcheck : (twoSimulated "Docs" "Photos").toOption.any (fun outcome =>
      (compilePlan twoContext (twoFolders "Docs" "Photos") outcome).toOption.any fun plan =>
        plan.steps.any fun step => step.kind = .createDirectory
          && (acceptedMoves (twoFolders "Docs" "Photos") outcome).all (leadsAway step)) = true := by
    decide +kernel
  rw [houtcome] at hcheck
  simp only [Except.toOption, Option.any_some] at hcheck
  cases hplan : compilePlan twoContext (twoFolders "Docs" "Photos") outcome with
  | error e =>
    rw [hplan] at hcheck
    cases hcheck
  | ok plan =>
    rw [hplan] at hcheck
    obtain ⟨step, hstep, hextra⟩ := List.any_eq_true.1 hcheck
    rw [Bool.and_eq_true, decide_eq_true_eq, List.all_eq_true] at hextra
    refine ⟨outcome, plan, houtcome, hplan, fun h => ?_⟩
    obtain ⟨move, hmove, hleads⟩ := h.directories step hstep hextra.1
    exact not_leadsTo (hextra.2 move hmove) hleads

/-- When both files go into one folder, the plan contains exactly the accepted part. -/
theorem compilePlan_exactlyAccepted_iff_shared :
    ∃ outcome plan, twoSimulated "Docs" "docs" = .ok outcome
      ∧ compilePlan twoContext (twoFolders "Docs" "docs") outcome = .ok plan
      ∧ (ExactlyAccepted asciiCase twoContext (twoFolders "Docs" "docs") outcome plan
        ↔ FoldersShared asciiCase {} (twoFolders "Docs" "docs") outcome) := by
  obtain ⟨outcome, houtcome⟩ : ∃ outcome, twoSimulated "Docs" "docs" = .ok outcome :=
    Checked.exists_of_isOk (by decide +kernel)
  have hcompiled : (twoSimulated "Docs" "docs").toOption.any (fun outcome =>
      (compilePlan twoContext (twoFolders "Docs" "docs") outcome).isOk) = true := by
    decide +kernel
  rw [houtcome] at hcompiled
  obtain ⟨plan, hplan⟩ := Checked.exists_of_isOk hcompiled
  exact ⟨outcome, plan, houtcome, hplan, compilePlan_exactlyAccepted_iff houtcome hplan⟩

end Zemo.Simulation
