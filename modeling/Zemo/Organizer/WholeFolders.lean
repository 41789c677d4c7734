import Zemo.Organizer.LeftInPlace

set_option autoImplicit false

/-! # Folders that stay whole

The bundle pass moves the files of a folder at the top one by one: each is cut at the largest depth,
refused alone when its path is too long, and given a suffix alone when its place is taken. Whether a
folder stays whole is told file by file; two folders come to one base when their names differ in the
case of ASCII letters only. -/

namespace Zemo.Organizer

open VirtualPathPolicy

variable {engine : EngineContext} {run : BuildRun} {request : OrganizationBuildRequest}

/-! ## Folders at the top -/

/-- The file is somewhere in the folder `top` at the top. -/
def inTopFolder (top : String) (input : OrganizationSourceInput) : Bool :=
  match normalizedSourceComponents input.sourceRelativePath with
  | first :: _ :: _ => first = top
  | _ => false

/-- The folders of a file below the one at the top. -/
def foldersBelowTop (input : OrganizationSourceInput) : List String :=
  (normalizedSourceComponents input.sourceRelativePath).tail.dropLast

/-- The base folder of what is in a folder at the top. -/
def EngineContext.folderBase (engine : EngineContext) (request : OrganizationBuildRequest)
    (top : String) : List String :=
  let members := bundleMembers request.inputs (toAsciiLowercase top)
  consumerBundleBase request.consumerRootKind (engine.bundleKind members)
    ((members.head?.bind (·.bundleTop)).getD top)

/-- The place a file has when its folder stays whole. -/
def EngineContext.blockPath (engine : EngineContext) (request : OrganizationBuildRequest)
    (top : String) (input : OrganizationSourceInput) : List String :=
  engine.folderBase request top ++ foldersBelowTop input

/-- The path of a file in its folder can be fitted. -/
def EngineContext.blockFits (engine : EngineContext) (request : OrganizationBuildRequest)
    (top : String) (input : OrganizationSourceInput) : Bool :=
  (request.policy.fitMachinePath
    ((engine.blockPath request top input).take request.policy.maximumDepth) input.sourceName).valid

theorem bundleTop_of_inTopFolder {top : String} {input : OrganizationSourceInput}
    (htop : inTopFolder top input = true) (hbundled : consumerBundleTopLevelIsProtected top = false) :
    input.bundleTop = some top := by
  unfold inTopFolder at htop
  unfold OrganizationSourceInput.bundleTop
  split at htop
  · rename_i first second rest hcomponents
    obtain rfl : first = top := of_decide_eq_true htop
    simp [hcomponents, hbundled]
  · exact nomatch htop

theorem mem_bundleMembers {inputs : List OrganizationSourceInput} {top : String}
    {input : OrganizationSourceInput} (hinput : input ∈ inputs) (htop : input.bundleTop = some top) :
    input ∈ bundleMembers inputs (toAsciiLowercase top) := by
  refine List.mem_filter.2 ⟨hinput, ?_⟩
  rw [htop]
  exact decide_eq_true rfl

/-- The place of a file in a folder at the top. -/
theorem bundlePlace_of_inTopFolder (engine : EngineContext) {top : String} {input : OrganizationSourceInput}
    (hinput : input ∈ request.inputs) (htop : inTopFolder top input = true)
    (hbundled : consumerBundleTopLevelIsProtected top = false) :
    ∃ place, engine.bundlePlace request.inputs request.consumerRootKind request.policy input
        = some place
      ∧ place.destination
        = (engine.blockPath request top input).take request.policy.maximumDepth := by
  have hmember := mem_bundleMembers hinput (bundleTop_of_inTopFolder htop hbundled)
  unfold inTopFolder at htop
  unfold EngineContext.bundlePlace EngineContext.blockPath EngineContext.folderBase foldersBelowTop
  split at htop
  · rename_i first second rest hcomponents
    obtain rfl : first = top := of_decide_eq_true htop
    rw [hcomponents]
    dsimp only
    cases hmembers : bundleMembers request.inputs (toAsciiLowercase first) with
    | nil =>
        rw [hmembers] at hmember
        exact absurd hmember List.not_mem_nil
    | cons canonical others => exact ⟨_, rfl, rfl⟩
  · exact nomatch htop

theorem bundleOf_of_inTopFolder (engine : EngineContext) {top : String}
    {input : OrganizationSourceInput}
    (hnodup : (request.inputs.map (·.fileId)).Nodup) (hinput : input ∈ request.inputs)
    (htop : inTopFolder top input = true)
    (hbundled : consumerBundleTopLevelIsProtected top = false) :
    ∃ place : BundlePlace,
      place.destination = (engine.blockPath request top input).take request.policy.maximumDepth
        ∧ engine.bundleOf request input.fileId
          = if engine.blockFits request top input then some (input, place) else none := by
  obtain ⟨place, hplace, hdestination⟩ := bundlePlace_of_inTopFolder engine hinput htop
    hbundled
  refine ⟨place, hdestination, ?_⟩
  unfold EngineContext.bundleOf EngineContext.blockFits
  rw [inputOf_eq_some hnodup hinput, Option.bind_some, hplace, Option.filter_some, hdestination]
  split <;> rfl

/-! ## Bases -/

theorem consumerBundleBase_getLast (rootKind : ConsumerRootKind) (kind : ConsumerFolderBundleKind)
    (top : String) : (consumerBundleBase rootKind kind top).getLast? = some top := by
  cases kind <;> cases rootKind <;> simp [consumerBundleBase]

/-- The folder has the name of the first file that is kept together in it. -/
theorem bundleMembers_name {top : String} {input : OrganizationSourceInput}
    (hinput : input ∈ request.inputs) (htop : input.bundleTop = some top) :
    ∃ name, ((bundleMembers request.inputs (toAsciiLowercase top)).head?.bind (·.bundleTop))
        = some name
      ∧ toAsciiLowercase name = toAsciiLowercase top := by
  have hmember := mem_bundleMembers hinput htop
  cases hmembers : bundleMembers request.inputs (toAsciiLowercase top) with
  | nil =>
      rw [hmembers] at hmember
      exact absurd hmember List.not_mem_nil
  | cons canonical others =>
      have hcanonical : canonical ∈ bundleMembers request.inputs (toAsciiLowercase top) := by
        rw [hmembers]
        exact List.mem_cons_self ..
      have hkey := (List.mem_filter.1 hcanonical).2
      cases hname : canonical.bundleTop with
      | none =>
          rw [hname] at hkey
          exact nomatch hkey
      | some name =>
          rw [hname] at hkey
          exact ⟨name, hname, of_decide_eq_true hkey⟩

/-- **Two folders come to one base** when their names differ in the case of ASCII letters only. -/
theorem folderBase_eq_iff {first second : String} {firstInput secondInput : OrganizationSourceInput}
    (hfirst : firstInput ∈ request.inputs) (hfirstTop : firstInput.bundleTop = some first)
    (hsecond : secondInput ∈ request.inputs) (hsecondTop : secondInput.bundleTop = some second) :
    engine.folderBase request first = engine.folderBase request second
      ↔ toAsciiLowercase first = toAsciiLowercase second := by
  obtain ⟨firstName, hfirstName, hfirstKey⟩ := bundleMembers_name hfirst hfirstTop
  obtain ⟨secondName, hsecondName, hsecondKey⟩ := bundleMembers_name hsecond hsecondTop
  unfold EngineContext.folderBase
  simp only
  constructor
  · intro hsame
    rw [hfirstName, hsecondName] at hsame
    have hlast := congrArg List.getLast? hsame
    rw [consumerBundleBase_getLast, consumerBundleBase_getLast] at hlast
    obtain rfl : firstName = secondName := Option.some.inj hlast
    exact hfirstKey.symm.trans hsecondKey
  · intro hkey
    rw [hkey] at hfirstName ⊢
    rw [hfirstName, Option.getD_some, Option.getD_some]

/-! ## Files of a folder -/

/-- The file moves with its folder, as the folder is. -/
structure StaysWhole (engine : EngineContext) (request : OrganizationBuildRequest) (top : String)
    (input : OrganizationSourceInput) (operation : OrganizationProposalOperation) : Prop where
  kind : operation.operationKind = .moveProposal
  conflict : operation.conflictState = .none
  destination : operation.proposedDestination = engine.blockPath request top input
  name : operation.proposedName = input.sourceName

/-- What is known of the history of a file in a folder that is kept together. -/
theorem History.inFolder {history : History} (hmem : history ∈ engine.histories run request)
    (hnodup : (request.inputs.map (·.fileId)).Nodup) (hmode : request.consumerMode = true)
    {top : String} (htop : inTopFolder top history.input = true)
    (hbundled : consumerBundleTopLevelIsProtected top = false)
    (huser : request.overrideOf history.input.fileId = none) :
    history.placed.operation.userOverride = false
      ∧ (engine.blockFits request top history.input = true →
        history.placed.operation.operationKind = .moveProposal
          ∧ history.placed.operation.conflictState = .none
          ∧ history.placed.operation.proposedName = history.input.sourceName
          ∧ history.placed.operation.proposedDestination
            = (engine.blockPath request top history.input).take request.policy.maximumDepth)
      ∧ (engine.blockFits request top history.input = false →
        history.placed.operation.conflictState = .pathTooLong) := by
  obtain ⟨hinput, ⟨position, hcompiled⟩, hplaced⟩ := mem_histories hmem
  obtain ⟨-, -, hfile, hmachine, hstale, -, -⟩ :=
    compileInput_fields engine run request history.input position
  rw [← hcompiled] at hfile hmachine hstale
  rw [huser, Option.isSome_none] at hmachine
  obtain ⟨place, hdestination, hfound⟩ :=
    bundleOf_of_inTopFolder engine hnodup hinput htop hbundled
  have hway := hplaced.consumer hmode (hcompiled ▸ compileInput_required hmode _ _) hmachine hstale
  rw [hfile, hfound] at hway
  refine ⟨hplaced.sameFile.override.trans hmachine, fun hfits => ?_, fun hrefused => ?_⟩
  · rw [hfits, if_pos rfl] at hway
    exact ⟨hway.kind, hway.conflict, hway.name, hway.destination.trans hdestination⟩
  · obtain ⟨place, hplace, hdestination⟩ :=
      bundlePlace_of_inTopFolder engine hinput htop hbundled
    refine hplaced.refused hmode hmachine hstale (hfile ▸ inputOf_eq_some hnodup hinput) hplace ?_
    rw [hdestination]
    exact hrefused

/-- **A file moves with its folder** exactly when its path can be fitted and is not too deep, and its
place was not asked for before. -/
theorem staysWhole_iff {history : History} (hmem : history ∈ engine.histories run request)
    (hnodup : (request.inputs.map (·.fileId)).Nodup) (hmode : request.consumerMode = true)
    {top : String} (htop : inTopFolder top history.input = true)
    (hbundled : consumerBundleTopLevelIsProtected top = false)
    (huser : request.overrideOf history.input.fileId = none) :
    StaysWhole engine request top history.input (history.final engine request.policy)
      ↔ engine.blockFits request top history.input = true
        ∧ (engine.blockPath request top history.input).length ≤ request.policy.maximumDepth
        ∧ engine.asksForName history.seen history.placed = false := by
  obtain ⟨hmachine, hfitted, hrefused⟩ := History.inFolder hmem hnodup hmode htop hbundled huser
  cases hasks : engine.asksForName history.seen history.placed with
  | true =>
      -- the name is changed, or the conflict stays
      refine iff_of_false (fun hwhole => ?_) fun hall => by cases hall.2.2
      have hconflict := History.final_conflict_of_asked request.policy hasks
      rw [hwhole.conflict] at hconflict
      split at hconflict <;> exact ProposalConflictState.noConfusion hconflict
  | false =>
      rw [History.final_of_not_asked request.policy hmachine hasks]
      cases hfits : engine.blockFits request top history.input with
      | false =>
          refine iff_of_false (fun hwhole => ?_) fun hall => by cases hall.1
          exact ProposalConflictState.noConfusion ((hrefused hfits).symm.trans hwhole.conflict)
      | true =>
          obtain ⟨hkind, hconflict, hname, hfolders⟩ := hfitted hfits
          constructor
          · intro hwhole
            exact ⟨rfl, List.take_eq_self_iff _ |>.1 (hfolders.symm.trans hwhole.destination), rfl⟩
          · rintro ⟨-, hdepth, -⟩
            exact ⟨hkind, hconflict, hfolders.trans (List.take_of_length_le hdepth), hname⟩

/-- **A file is not moved** exactly when its path cannot be fitted, or another file has its place and
no name is free for it. -/
theorem notMoved_iff {history : History} (hmem : history ∈ engine.histories run request)
    (hnodup : (request.inputs.map (·.fileId)).Nodup) (hmode : request.consumerMode = true)
    {top : String} (htop : inTopFolder top history.input = true)
    (hbundled : consumerBundleTopLevelIsProtected top = false)
    (huser : request.overrideOf history.input.fileId = none) :
    isPlaced (history.final engine request.policy) = false
      ↔ if engine.asksForName history.seen history.placed then
          engine.nameIsFree request.policy history.seen history.placed = false
        else engine.blockFits request top history.input = false := by
  obtain ⟨hmachine, hfitted, hrefused⟩ := History.inFolder hmem hnodup hmode htop hbundled huser
  cases hasks : engine.asksForName history.seen history.placed with
  | true =>
      have hmoved : isLeftAlone (history.final engine request.policy) = false := by
        rw [History.isLeftAlone_final]
        unfold EngineContext.asksForName at hasks
        simp only [Bool.and_eq_true, Bool.not_eq_true'] at hasks
        exact hasks.1.1
      have hconflict := History.final_conflict_of_asked request.policy hasks
      unfold isPlaced isSettled
      rw [hmoved, hconflict, if_pos rfl]
      cases engine.nameIsFree request.policy history.seen history.placed <;> decide
  | false =>
      rw [History.final_of_not_asked request.policy hmachine hasks, if_neg Bool.noConfusion]
      unfold isPlaced isSettled
      cases hfits : engine.blockFits request top history.input with
      | false => simp [hrefused hfits]
      | true =>
          obtain ⟨hkind, hconflict, -, -⟩ := hfitted hfits
          simp [hconflict, isLeftAlone, hkind]

/-! ## Builds -/

/-- The files of a folder at the top all have a property. -/
def AllInFolder (engine : EngineContext) (run : BuildRun) (request : OrganizationBuildRequest)
    (top : String) (property : History → Prop) : Prop :=
  ∀ history ∈ engine.histories run request, inTopFolder top history.input = true →
    property history

/-- **Which folders stay whole**: in a one-click organization that is not cancelled, all files of a
folder that is kept together move with it, or none is moved, exactly when that holds of each file by
its own path and by what was asked for before it; and two such folders come to one base exactly when
their names differ in the case of ASCII letters only. -/
theorem folders_stay_whole_iff (engine : EngineContext) (run : BuildRun)
    (request : OrganizationBuildRequest) (hmode : request.consumerMode = true)
    (hnodup : (request.inputs.map (·.fileId)).Nodup)
    (h : (engine.buildFull run request).status ≠ .cancelled) :
    (engine.buildFull run request).operations
        = (engine.histories run request).map (·.final engine request.policy)
      ∧ (engine.histories run request).map (·.input) = request.inputs
      ∧ (∀ top, consumerBundleTopLevelIsProtected top = false →
        (∀ input ∈ request.inputs, inTopFolder top input = true →
          request.overrideOf input.fileId = none) →
        (AllInFolder engine run request top (fun history =>
              StaysWhole engine request top history.input (history.final engine request.policy))
            ∨ AllInFolder engine run request top (fun history =>
              isPlaced (history.final engine request.policy) = false)
          ↔ AllInFolder engine run request top (fun history =>
              engine.blockFits request top history.input = true
                ∧ (engine.blockPath request top history.input).length ≤ request.policy.maximumDepth
                ∧ engine.asksForName history.seen history.placed = false)
            ∨ AllInFolder engine run request top (fun history =>
              if engine.asksForName history.seen history.placed then
                engine.nameIsFree request.policy history.seen history.placed = false
              else engine.blockFits request top history.input = false)))
      ∧ ∀ firstInput ∈ request.inputs, ∀ secondInput ∈ request.inputs, ∀ first second,
        firstInput.bundleTop = some first → secondInput.bundleTop = some second →
          (engine.folderBase request first = engine.folderBase request second
            ↔ toAsciiLowercase first = toAsciiLowercase second) := by
  refine ⟨buildFull_operations h, histories_inputs, fun top hbundled hmachine => ?_,
    fun _ hfirst _ hsecond _ _ hfirstTop hsecondTop =>
      folderBase_eq_iff hfirst hfirstTop hsecond hsecondTop⟩
  have huser : ∀ history ∈ engine.histories run request, inTopFolder top history.input = true →
      request.overrideOf history.input.fileId = none :=
    fun history hmem htop => hmachine _ (mem_histories hmem).1 htop
  refine or_congr (forall₂_congr fun history hmem => ?_) (forall₂_congr fun history hmem => ?_)
  · exact forall_congr' fun htop =>
      staysWhole_iff hmem hnodup hmode htop hbundled (huser history hmem htop)
  · exact forall_congr' fun htop =>
      notMoved_iff hmem hnodup hmode htop hbundled (huser history hmem htop)

/-- Two folders whose names differ in a letter's case, each with a file of one name. -/
private def twinFolders : OrganizationBuildRequest :=
  sampleRequest true
    [sampleInput 1 "Projet/a.txt" "a.txt", sampleInput 2 "projet/a.txt" "a.txt"] []

theorem folders_stay_whole_iff_twinFolders :
    AllInFolder sampleEngine sampleBuildRun twinFolders "Projet" (fun history =>
        StaysWhole sampleEngine twinFolders "Projet" history.input
          (history.final sampleEngine twinFolders.policy))
      ∨ AllInFolder sampleEngine sampleBuildRun twinFolders "Projet" (fun history =>
        isPlaced (history.final sampleEngine twinFolders.policy) = false) := by
  refine ((folders_stay_whole_iff sampleEngine sampleBuildRun twinFolders rfl (by decide)
    (by decide +kernel)).2.2.1 "Projet" (by decide +kernel) (by decide +kernel)).2 (.inl ?_)
  unfold AllInFolder
  decide +kernel

/-- One of two folders with names that differ in a letter's case is torn apart: its file gets
another name in the other folder. -/
theorem twin_folder_torn :
    (sampleEngine.buildFull sampleBuildRun twinFolders).status = .readyForReview
      ∧ (∀ input ∈ twinFolders.inputs, twinFolders.overrideOf input.fileId = none
        ∧ input.ruleEvaluation.winningLocationRule = none
        ∧ (sampleEngine.decisionFor twinFolders input).isProgram = false
        ∧ input.duplicateNoAction = false)
      ∧ ¬ (AllInFolder sampleEngine sampleBuildRun twinFolders "projet" (fun history =>
          StaysWhole sampleEngine twinFolders "projet" history.input
            (history.final sampleEngine twinFolders.policy))
        ∨ AllInFolder sampleEngine sampleBuildRun twinFolders "projet" (fun history =>
          isPlaced (history.final sampleEngine twinFolders.policy) = false))
      ∧ sampleEngine.folderBase twinFolders "Projet"
        = sampleEngine.folderBase twinFolders "projet" := by
  have hseen : (sampleEngine.histories sampleBuildRun twinFolders).map (fun history =>
      (inTopFolder "projet" history.input,
        (history.final sampleEngine twinFolders.policy).proposedName,
        isPlaced (history.final sampleEngine twinFolders.policy)))
      = [(false, "a.txt", true), (true, "a_2.txt", true)] := by
    decide +kernel
  have hinputs : (sampleEngine.histories sampleBuildRun twinFolders).map
      (fun history => history.input.sourceName) = ["a.txt", "a.txt"] := by
    decide +kernel
  obtain ⟨first, _, hhistories, hfirst, hrest⟩ := List.map_eq_cons_iff.1 hseen
  obtain ⟨second, _, rfl, hsecond, hnil⟩ := List.map_eq_cons_iff.1 hrest
  obtain rfl := List.map_eq_nil_iff.1 hnil
  simp only [Prod.mk.injEq] at hsecond
  have hmem : second ∈ sampleEngine.histories sampleBuildRun twinFolders := by
    rw [hhistories]
    simp
  have hown : second.input.sourceName = "a.txt" := by
    rw [hhistories] at hinputs
    simpa using (List.cons.inj (List.cons.inj hinputs).2).1
  refine ⟨by decide +kernel, by decide +kernel, ?_, by decide +kernel⟩
  rintro (hwhole | hstays)
  · have hname := (hwhole second hmem hsecond.1).name
    rw [hsecond.2.1, hown] at hname
    exact absurd hname (by decide)
  · exact Bool.noConfusion ((hstays second hmem hsecond.1).symm.trans hsecond.2.2)

end Zemo.Organizer
