import Zemo.Organizer.Bundles
import Zemo.Organizer.Decided

set_option autoImplicit false

/-! # Programs and duplicates stay where they are

The one-click organization decides for each file whether it is a program, and for each duplicate
that nothing is done about it. The bundle pass looks at neither: a program or a duplicate in a
folder that is kept together moves with the folder. -/

namespace Zemo.Organizer

open VirtualPathPolicy

variable {engine : EngineContext} {run : BuildRun} {request : OrganizationBuildRequest}

/-! ## Decisions -/

/-- The decision is that the file is a program, for sure or perhaps. -/
def ConsumerDecision.isProgram (decision : ConsumerDecision) : Bool :=
  decision.reasonCode = "program_protected" || decision.reasonCode = "uncertain_program"

theorem not_isProgram_of_code {decision : ConsumerDecision}
    (h : decision.reasonCode ∈ ["image", "video", "archive", "document", "already_organized"]) :
    decision.isProgram = false := by
  unfold ConsumerDecision.isProgram
  simp only [List.mem_cons, List.not_mem_nil, or_false] at h
  rcases h with h | h | h | h | h <;> rw [h] <;> decide

theorem maybePreserveExisting_code (sourceRelativePath : String) (decision : ConsumerDecision) :
    (maybePreserveExisting sourceRelativePath decision).reasonCode = decision.reasonCode
      ∨ (maybePreserveExisting sourceRelativePath decision).reasonCode = "already_organized" := by
  unfold maybePreserveExisting
  simp only
  split
  · exact .inl rfl
  · split
    · exact .inr rfl
    · exact .inl rfl

theorem classifyMediaOrArchive_code {rootKind : ConsumerRootKind} {ending : Option String}
    {nameLower : String} {documentType : Option String} {decision : ConsumerDecision}
    (h : classifyMediaOrArchive rootKind ending nameLower documentType = some decision) :
    decision.reasonCode ∈ ["image", "video", "archive"] := by
  unfold classifyMediaOrArchive at h
  simp only at h
  split at h
  · split at h
    · obtain rfl := Option.some.inj h
      simp [putInto]
    · split at h <;>
      · obtain rfl := Option.some.inj h
        simp [putInto]
  · split at h
    · obtain rfl := Option.some.inj h
      simp [putInto]
    · split at h
      · obtain rfl := Option.some.inj h
        simp [putInto]
      · exact nomatch h

/-- **Programs are left in place** by the decision. -/
theorem leaveInPlace_of_isProgram (sourceRelativePath sourceName : String)
    (rootKind : ConsumerRootKind) (documentType : Option String)
    (h : (engine.decideConsumerOrganization sourceRelativePath sourceName rootKind
      documentType).isProgram = true) :
    (engine.decideConsumerOrganization sourceRelativePath sourceName rootKind
      documentType).leaveInPlace = true := by
  have hsettled : ∀ decision : ConsumerDecision,
      decision.reasonCode ∈ ["image", "video", "archive", "document"] →
        (maybePreserveExisting sourceRelativePath decision).isProgram = false := by
    intro decision hcode
    refine not_isProgram_of_code ?_
    rcases maybePreserveExisting_code sourceRelativePath decision with hsame | hsame
    · rw [hsame]
      simp only [List.mem_cons, List.not_mem_nil, or_false] at hcode ⊢
      tauto
    · rw [hsame]
      simp
  unfold EngineContext.decideConsumerOrganization at h ⊢
  simp only at h ⊢
  by_cases hmanifest : (isProjectManifest (engine.toLowercase sourceName)
      && isLooseFile sourceRelativePath) = true
  · rw [if_pos hmanifest] at h
    exact absurd h (by decide)
  rw [if_neg hmanifest] at h ⊢
  by_cases hprogram : isProgramOrSystem sourceRelativePath sourceName (extensionOf sourceName) = true
  · rw [if_pos hprogram]
    rfl
  rw [if_neg hprogram] at h ⊢
  by_cases hshortcut : isDesktopShortcut (extensionOf sourceName) sourceRelativePath = true
  · rw [if_pos hshortcut]
    rfl
  rw [if_neg hshortcut] at h ⊢
  by_cases hinstaller : isDownloadedInstaller (engine.toLowercase sourceName)
      (extensionOf sourceName) = true
  · rw [if_pos hinstaller] at h
    exact absurd h (by decide)
  rw [if_neg hinstaller] at h ⊢
  by_cases hunknown : isUnknownExecutable (extensionOf sourceName) = true
  · rw [if_pos hunknown]
    rfl
  rw [if_neg hunknown] at h ⊢
  by_cases hnested : isProjectManifest (engine.toLowercase sourceName) = true
  · rw [if_pos hnested]
    rfl
  rw [if_neg hnested] at h ⊢
  split
  · rename_i decision hclass
    rw [hclass] at h
    have hcode := classifyMediaOrArchive_code hclass
    simp only [List.mem_cons, List.not_mem_nil, or_false] at hcode
    rw [hsettled _ (by simp only [List.mem_cons, List.not_mem_nil, or_false]; tauto)] at h
    cases h
  · rename_i hclass
    rw [hclass] at h
    simp only at h
    split at h
    · rw [hsettled _ (by simp [putInto])] at h
      cases h
    · rename_i hother
      rw [if_neg hother]
      split at h
      · exact absurd h (by decide)
      · rename_i hloose
        rw [if_neg hloose]
        rfl

/-! ## Files that are left -/

/-- The file is kept where it is, under its name. -/
structure StaysPut (input : OrganizationSourceInput) (operation : OrganizationProposalOperation) :
    Prop where
  kind : operation.operationKind = .keepInPlace
  destination : operation.proposedDestination = input.sourceParent
  name : operation.proposedName = input.sourceName

/-- Nothing is changed in the path of a file to make it safe. -/
def OwnPathSafe (policy : VirtualPathPolicy) (input : OrganizationSourceInput) : Prop :=
  (policy.fitMachinePath input.sourceParent input.sourceName).destination = input.sourceParent
    ∧ (policy.fitMachinePath input.sourceParent input.sourceName).name = input.sourceName

theorem undecided_of_left {input : OrganizationSourceInput} (hmode : request.consumerMode = true)
    (hrule : input.ruleEvaluation.winningLocationRule = none)
    (hleft : (engine.decisionFor request input).leaveInPlace = true) :
    let fitted := request.policy.fitMachinePath input.sourceParent input.sourceName
    (engine.undecided request input).proposedDestination = fitted.destination
      ∧ (engine.undecided request input).proposedName = fitted.name := by
  unfold EngineContext.decisionFor at hleft
  unfold EngineContext.undecided EngineContext.compileOperation
  rw [hmode, hrule]
  simp only [if_true] at hleft ⊢
  unfold EngineContext.compileConsumerOperation
  simp only [hleft, if_true]
  simp only [Option.map_none, Chosen.byRule, EngineContext.makeDraft, decidedPlacement,
    Placement.ofFitted, List.map_map, Function.comp_def, List.map_id']
  exact ⟨trivial, trivial⟩

/-- **A program stays** when it is not moved with its folder, is no duplicate, and its own path is
safe. -/
theorem programStays_iff {history : History} (hmem : history ∈ engine.histories run request)
    (hmode : request.consumerMode = true)
    (huser : request.overrideOf history.input.fileId = none)
    (hrule : history.input.ruleEvaluation.winningLocationRule = none)
    (hprogram : (engine.decisionFor request history.input).isProgram = true) :
    StaysPut history.input (history.final engine request.policy)
      ↔ history.input.duplicateNoAction = false
        ∧ engine.bundleOf request history.input.fileId = none
        ∧ OwnPathSafe request.policy history.input := by
  have hleft : (engine.decisionFor request history.input).leaveInPlace = true :=
    leaveInPlace_of_isProgram _ _ _ _ hprogram
  obtain ⟨-, ⟨position, hcompiled⟩, hplaced⟩ := mem_histories hmem
  obtain ⟨-, -, hfile, hmachine, hstale, -, -⟩ :=
    compileInput_fields engine run request history.input position
  have hfolders := compileInput_placement engine run request history.input position
  have hkind := compileInput_kind engine run request history.input position
  obtain ⟨hownFolder, hownName⟩ := undecided_of_left hmode hrule hleft
  rw [← hcompiled] at hfile hmachine hstale
  simp only [← hcompiled, huser, decidedPlacement, EngineContext.undecidedPlacement, hownFolder,
    hownName] at hfolders
  rw [huser, Option.isSome_none] at hmachine
  have hway := hplaced.consumer hmode (hcompiled ▸ compileInput_required hmode _ _) hmachine hstale
  rw [hfile] at hway
  cases hfound : engine.bundleOf request history.input.fileId with
  | some found =>
      -- the file goes where its folder goes
      rw [hfound] at hway
      refine iff_of_false (fun hstays => ?_) fun hall => by cases hall.2.1
      have hmoved : isLeftAlone (history.final engine request.policy) = false := by
        rw [History.isLeftAlone_final]
        simp [isLeftAlone, hway.kind]
      simp [isLeftAlone, hstays.kind] at hmoved
  | none =>
      rw [hfound] at hway
      have hleftKind : history.placed.operation.operationKind
          = if history.input.duplicateNoAction then .noAction else .keepInPlace := by
        rw [hway.kind, hcompiled, hkind]
        simp [EngineContext.leftByMachine, hmode, hleft]
      have hfinal : history.final engine request.policy = history.placed.operation :=
        History.final_of_leftAlone _ (by
          unfold isLeftAlone
          rw [hleftKind]
          split <;> decide)
      rw [hfinal]
      constructor
      · intro hstays
        refine ⟨?_, rfl, ?_, ?_⟩
        · have hkept := hleftKind.symm.trans hstays.kind
          cases hsingle : history.input.duplicateNoAction with
          | false => rfl
          | true => simp [hsingle] at hkept
        · rw [← hfolders.1, ← hway.destination, hstays.destination]
        · rw [← hfolders.2.1, ← hway.name, hstays.name]
      · rintro ⟨hsingle, -, hsafe⟩
        refine ⟨?_, ?_, ?_⟩
        · rw [hleftKind, hsingle]
          rfl
        · rw [hway.destination, hfolders.1, hsafe.1]
        · rw [hway.name, hfolders.2.1, hsafe.2]

/-- **A duplicate is left alone** when it is not moved with its folder, or the user has decided on
it. -/
theorem duplicateLeft_iff {history : History} (hmem : history ∈ engine.histories run request)
    (hmode : request.consumerMode = true) (hduplicate : history.input.duplicateNoAction = true) :
    (history.final engine request.policy).operationKind = .noAction
      ↔ ((request.overrideOf history.input.fileId).isSome = true
        ∨ engine.bundleOf request history.input.fileId = none) := by
  obtain ⟨-, ⟨position, hcompiled⟩, hplaced⟩ := mem_histories hmem
  obtain ⟨-, -, hfile, hmachine, hstale, -, -⟩ :=
    compileInput_fields engine run request history.input position
  have hkind := compileInput_kind engine run request history.input position
  rw [← hcompiled] at hfile hmachine hstale
  simp only [← hcompiled, hduplicate, if_true] at hkind
  have hleft : history.placed.operation.operationKind = .noAction →
      (history.final engine request.policy).operationKind = .noAction := by
    intro hnone
    rw [History.final_of_leftAlone _ (by simp [isLeftAlone, hnone]), hnone]
  cases huser : (request.overrideOf history.input.fileId).isSome with
  | true =>
      rw [huser] at hmachine
      exact iff_of_true (hleft ((hplaced.override hmachine).kind.trans hkind)) (.inl rfl)
  | false =>
      rw [huser] at hmachine
      have hway := hplaced.consumer hmode (hcompiled ▸ compileInput_required hmode _ _) hmachine
        hstale
      rw [hfile] at hway
      cases hfound : engine.bundleOf request history.input.fileId with
      | none =>
          rw [hfound] at hway
          exact iff_of_true (hleft (hway.kind.trans hkind)) (.inr rfl)
      | some found =>
          rw [hfound] at hway
          refine iff_of_false (fun hnone => ?_) (by simp)
          have hmoved : isLeftAlone (history.final engine request.policy) = false := by
            rw [History.isLeftAlone_final]
            simp [isLeftAlone, hway.kind]
          simp [isLeftAlone, hnone] at hmoved

/-! ## Builds -/

/-- **Which programs and duplicates stay**: in a one-click organization that is not cancelled there
is an operation for each file, and a program or a duplicate is left where it is exactly when it does
not move with its folder at the top. -/
theorem programs_and_duplicates_stay_iff (engine : EngineContext) (run : BuildRun)
    (request : OrganizationBuildRequest) (hmode : request.consumerMode = true)
    (h : (engine.buildFull run request).status ≠ .cancelled) :
    (engine.buildFull run request).operations
        = (engine.histories run request).map (·.final engine request.policy)
      ∧ (engine.histories run request).map (·.input) = request.inputs
      ∧ ∀ history ∈ engine.histories run request,
        (history.final engine request.policy).fileId = history.input.fileId
          ∧ (request.overrideOf history.input.fileId = none →
            history.input.ruleEvaluation.winningLocationRule = none →
            (engine.decisionFor request history.input).isProgram = true →
              (StaysPut history.input (history.final engine request.policy)
                ↔ history.input.duplicateNoAction = false
                  ∧ engine.bundleOf request history.input.fileId = none
                  ∧ OwnPathSafe request.policy history.input))
          ∧ (history.input.duplicateNoAction = true →
            ((history.final engine request.policy).operationKind = .noAction
              ↔ (request.overrideOf history.input.fileId).isSome = true
                ∨ engine.bundleOf request history.input.fileId = none)) :=
  ⟨buildFull_operations h, histories_inputs, fun _ hmem =>
    ⟨History.final_fileId hmem, programStays_iff hmem hmode, duplicateLeft_iff hmem hmode⟩⟩

/-- A game in a folder of its own. -/
private def gameFolder : OrganizationBuildRequest :=
  sampleRequest true [sampleInput 1 "MyGame/game.exe" "game.exe"] []

theorem programs_and_duplicates_stay_iff_gameFolder :
    (sampleEngine.buildFull sampleBuildRun gameFolder).operations
        = (sampleEngine.histories sampleBuildRun gameFolder).map
          (·.final sampleEngine gameFolder.policy)
      ∧ (sampleEngine.histories sampleBuildRun gameFolder).map (·.input) = gameFolder.inputs
      ∧ ∀ history ∈ sampleEngine.histories sampleBuildRun gameFolder,
        (history.final sampleEngine gameFolder.policy).fileId = history.input.fileId
          ∧ (gameFolder.overrideOf history.input.fileId = none →
            history.input.ruleEvaluation.winningLocationRule = none →
            (sampleEngine.decisionFor gameFolder history.input).isProgram = true →
              (StaysPut history.input (history.final sampleEngine gameFolder.policy)
                ↔ history.input.duplicateNoAction = false
                  ∧ sampleEngine.bundleOf gameFolder history.input.fileId = none
                  ∧ OwnPathSafe gameFolder.policy history.input))
          ∧ (history.input.duplicateNoAction = true →
            ((history.final sampleEngine gameFolder.policy).operationKind = .noAction
              ↔ (gameFolder.overrideOf history.input.fileId).isSome = true
                ∨ sampleEngine.bundleOf gameFolder history.input.fileId = none)) :=
  programs_and_duplicates_stay_iff sampleEngine sampleBuildRun gameFolder rfl (by decide +kernel)

/-- A program no decision and no rule speaks of moves with its folder. -/
theorem program_moved_with_folder :
    (sampleEngine.buildFull sampleBuildRun gameFolder).status = .readyForReview
      ∧ ∃ input ∈ gameFolder.inputs, gameFolder.overrideOf input.fileId = none
        ∧ input.ruleEvaluation.winningLocationRule = none
        ∧ (sampleEngine.decisionFor gameFolder input).isProgram = true
        ∧ ∃ operation ∈ (sampleEngine.buildFull sampleBuildRun gameFolder).operations,
          operation.fileId = input.fileId ∧ operation.operationKind = .moveProposal
            ∧ operation.proposedDestination = ["À vérifier", "Dossiers", "MyGame"] := by
  have hseen : (sampleEngine.buildFull sampleBuildRun gameFolder).operations.map
      (fun operation => (operation.fileId, operation.operationKind,
        operation.proposedDestination))
      = [(1, .moveProposal, ["À vérifier", "Dossiers", "MyGame"])] := by
    decide +kernel
  obtain ⟨operation, _, hoperations, hoperation, hnil⟩ := List.map_eq_cons_iff.1 hseen
  obtain rfl := List.map_eq_nil_iff.1 hnil
  simp only [Prod.mk.injEq] at hoperation
  refine ⟨by decide +kernel, sampleInput 1 "MyGame/game.exe" "game.exe", List.mem_singleton_self _,
    rfl, rfl, by decide +kernel, operation, ?_, hoperation⟩
  rw [hoperations]
  exact List.mem_singleton_self _

end Zemo.Organizer
