import Zemo.Organizer.Bundles
import Zemo.Organizer.Decided

set_option autoImplicit false

/-! # What the user's decision decides

A stored decision settles the folders and the name of an operation. Its conflict and its kind are
still what the machine's own proposal for the file has left, where that would be too long or leave
the file in place. A rule settles the folders where the bundle pass does not. -/

namespace Zemo.Organizer

open VirtualPathPolicy

variable {engine : EngineContext} {run : BuildRun} {request : OrganizationBuildRequest}

/-! ## Decisions -/

/-- The decision names folders or a name. -/
def changesPlace (user : OrganizationProposalOverride) : Bool :=
  user.action = .destination || user.action = .rename || user.action = .destinationAndRename

/-- The folders and the name are those of the decision. -/
structure GivenPlace (user : OrganizationProposalOverride)
    (operation : OrganizationProposalOperation) : Prop where
  destination : user.action = .destination ∨ user.action = .destinationAndRename →
    ∀ destination ∈ user.destination, operation.proposedDestination = destination
  name : user.action = .rename ∨ user.action = .destinationAndRename →
    ∀ name ∈ user.proposedName, operation.proposedName = name

/-- The place is not the file's own, beyond the case of ASCII letters. -/
def differs (input : OrganizationSourceInput) (operation : OrganizationProposalOperation) : Bool :=
  !(pathsEqual input.sourceParent operation.proposedDestination
    && eqIgnoreAsciiCase input.sourceName operation.proposedName)

/-- Nothing stands in the way of an operation, and a place that differs is gone to. -/
structure CarriedOut (input : OrganizationSourceInput) (operation : OrganizationProposalOperation) :
    Prop where
  conflict : operation.conflictState = .none
  kind : differs input operation = true → operation.operationKind = .moveProposal
    ∨ operation.operationKind = .renameProposal ∨ operation.operationKind = .toReview

/-- The path of an operation is one a user may give. -/
def PathAccepted (policy : VirtualPathPolicy) (destination : List String) (name : String) : Prop :=
  (policy.validateUserDestination destination).isOk = true
    ∧ (policy.validateUserFilename name).isOk = true
    ∧ pathLengthUtf16 destination name ≤ policy.maximumPathUtf16

theorem checked_conflict_of_accepted {policy : VirtualPathPolicy} {placement : Placement}
    (h : PathAccepted policy placement.destination placement.name) :
    (placement.checked policy).conflictState = placement.conflictState := by
  obtain ⟨hdestination, hname, hlength⟩ := h
  unfold Placement.checked
  rw [hdestination, hname, if_neg (by simp), if_neg (Nat.not_lt.2 hlength)]

theorem checked_conflict_of_refused {policy : VirtualPathPolicy} {placement : Placement}
    (h : ¬ PathAccepted policy placement.destination placement.name) :
    (placement.checked policy).conflictState ≠ .none := by
  unfold Placement.checked
  split
  · exact ProposalConflictState.noConfusion
  · rename_i hvalid
    simp only [not_or, Bool.not_eq_false] at hvalid
    split
    · exact ProposalConflictState.noConfusion
    · rename_i hlength
      exact absurd ⟨hvalid.1, hvalid.2, Nat.not_lt.1 hlength⟩ h

theorem applyOverride_conflict (user : OrganizationProposalOverride) (review : String)
    (input : OrganizationSourceInput) (machine : Placement) :
    (applyOverride user review input machine).conflictState = machine.conflictState := by
  unfold applyOverride
  cases user.action <;> rfl

theorem applyOverride_given (user : OrganizationProposalOverride) (review : String)
    (input : OrganizationSourceInput) (machine : Placement) :
    (user.action = .destination ∨ user.action = .destinationAndRename →
        ∀ destination ∈ user.destination,
          (applyOverride user review input machine).destination = destination)
      ∧ (user.action = .rename ∨ user.action = .destinationAndRename →
        ∀ name ∈ user.proposedName, (applyOverride user review input machine).name = name) := by
  unfold applyOverride
  constructor
  · rintro (haction | haction) destination hdestination <;>
      rw [haction, Option.mem_def.1 hdestination] <;> rfl
  · rintro (haction | haction) name hname <;> rw [haction, Option.mem_def.1 hname] <;> rfl

/-! ## Histories of files with a decision -/

/-- What is known of the history of a file with a decision. -/
structure History.Decided (request : OrganizationBuildRequest) (history : History)
    (placement : Placement) : Prop where
  destination : history.placed.operation.proposedDestination = placement.destination
  name : history.placed.operation.proposedName = placement.name
  conflict : history.placed.operation.conflictState
    = (placement.checked request.policy).conflictState
  override : history.placed.operation.userOverride = true
  kind : history.placed.operation.operationKind = history.compiled.operation.operationKind
  folders : history.compiled.operation.proposedDestination = placement.destination
  named : history.compiled.operation.proposedName = placement.name

theorem History.decided {history : History} (hmem : history ∈ engine.histories run request)
    {user : OrganizationProposalOverride}
    (huser : request.overrideOf history.input.fileId = some user) :
    history.Decided request (applyOverride user request.reviewFolder history.input
      (engine.undecidedPlacement request history.input)) := by
  obtain ⟨-, ⟨position, hcompiled⟩, hplaced⟩ := mem_histories hmem
  obtain ⟨-, -, -, hoverride, -, -, -⟩ :=
    compileInput_fields engine run request history.input position
  have hplacement := compileInput_placement engine run request history.input position
  have hrequired : true ∉ history.compiled.optionalTail :=
    hcompiled ▸ compileInput_required_override history.input position (huser ▸ rfl)
  rw [← hcompiled, huser] at hoverride
  simp only [← hcompiled, huser, decidedPlacement, checked_destination, checked_name]
    at hplacement
  have hway := hplaced.override hoverride
  exact
    { destination := (hway.required hrequired).1.trans hplacement.1
      name := hway.name.trans hplacement.2.1
      conflict := hway.conflict.trans hplacement.2.2
      override := hway.override.trans hoverride
      kind := hway.kind
      folders := hplacement.1
      named := hplacement.2.1 }

/-- The collision pass changes neither the folders nor the name of a user. -/
theorem History.final_place_of_override (engine : EngineContext) (policy : VirtualPathPolicy)
    {history : History}
    (huser : history.placed.operation.userOverride = true) :
    (history.final engine policy).proposedDestination
        = history.placed.operation.proposedDestination
      ∧ (history.final engine policy).proposedName = history.placed.operation.proposedName := by
  have hstep : CollisionStep policy history.placed
      (engine.resolveCollision policy history.seen history.placed).2 :=
    resolveCollision_step history.seen history.placed
  unfold History.final
  generalize (engine.resolveCollision policy history.seen history.placed).2 = result at hstep ⊢
  cases hstep with
  | kept => exact ⟨rfl, rfl⟩
  | ofUser code explanation hmoved _ => exact ⟨rfl, rfl⟩
  | unresolved code explanation hmoved hmachine =>
      exact Bool.noConfusion (hmachine.symm.trans huser)
  | suffixed suffix hmoved hmachine hshort => exact Bool.noConfusion (hmachine.symm.trans huser)

/-- An operation of a user that shares its place with no other is left as it is placed. -/
theorem History.final_of_alone {position : Nat} {history : History}
    (hhistory : (engine.histories run request)[position]? = some history)
    (huser : history.placed.operation.userOverride = true)
    (halone : ¬ engine.SharesPlace run request position history) :
    history.final engine request.policy = history.placed.operation := by
  unfold History.final
  by_cases hfree : engine.PlaceFree history.seen history.placed.operation
  · rw [resolveCollision_of_free hfree]
  · obtain ⟨-, hasked⟩ := not_or.1 hfree
    obtain ⟨other, neighbour, hother, hneighbour, hkey⟩ :=
      exists_earlier_of_seen hhistory (not_not.1 hasked)
    obtain ⟨hfolders, hname⟩ :=
      History.final_place_of_override engine request.policy huser
    refine absurd ⟨other, neighbour, hother.ne, hneighbour, hkey.trans ?_⟩ halone
    unfold EngineContext.placeKey
    rw [hfolders, hname]

/-! ## Folders and names of a user -/

theorem keepsInPlace_of_changesPlace {user : OrganizationProposalOverride}
    (h : changesPlace user = true) : keepsInPlace (some user) = false := by
  simp only [changesPlace, Bool.or_eq_true, decide_eq_true_eq] at h
  rcases h with (h | h) | h <;> simp [keepsInPlace, h]

/-- The kind of a placed operation moves its file where the place differs, unless the one-click
organization leaves the file in place. -/
theorem placed_kind_moves {history : History} (hmem : history ∈ engine.histories run request)
    {user : OrganizationProposalOverride}
    (huser : request.overrideOf history.input.fileId = some user)
    (hchanges : changesPlace user = true) (hsingle : history.input.duplicateNoAction = false) :
    (differs history.input history.placed.operation = true →
        history.placed.operation.operationKind = .moveProposal
          ∨ history.placed.operation.operationKind = .renameProposal
          ∨ history.placed.operation.operationKind = .toReview)
      ↔ (engine.leftByMachine request history.input = true →
        differs history.input history.placed.operation = false) := by
  obtain ⟨-, ⟨position, hcompiled⟩, -⟩ := mem_histories hmem
  have hdecided := History.decided hmem huser
  have hkind := compileInput_kind engine run request history.input position
  simp only [← hcompiled, hsingle, huser, keepsInPlace_of_changesPlace hchanges, Bool.false_or,
    Bool.false_eq_true, if_false] at hkind
  rw [hdecided.kind]
  cases hleft : engine.leftByMachine request history.input with
  | true =>
      rw [hleft, if_pos rfl] at hkind
      rw [hkind]
      cases differs history.input history.placed.operation <;> simp
  | false =>
      rw [hleft, if_neg Bool.noConfusion] at hkind
      refine iff_of_true (fun hdiffers => ?_) fun hnever => nomatch hnever
      split at hkind
      · exact .inr (.inr hkind)
      · unfold differs at hdiffers
        rw [hdecided.destination, hdecided.name, ← hdecided.folders, ← hdecided.named] at hdiffers
        unfold placedKind at hkind
        split at hkind
        · rename_i hfolders
          rw [hfolders, Bool.true_and, Bool.not_eq_true'] at hdiffers
          rw [hdiffers, if_neg Bool.noConfusion] at hkind
          exact .inr (.inl hkind)
        · exact .inl hkind

/-- **A decision on a place**: the folders and the name are the given ones. Where the path is
accepted and no other operation has its place, the operation is carried out exactly when the
machine's own proposal for the file has no conflict, and does not leave it in place. -/
theorem placeGiven_carriedOut_iff {position : Nat} {history : History}
    (hhistory : (engine.histories run request)[position]? = some history)
    {user : OrganizationProposalOverride}
    (huser : request.overrideOf history.input.fileId = some user)
    (hchanges : changesPlace user = true) (hsingle : history.input.duplicateNoAction = false) :
    let operation := history.final engine request.policy
    GivenPlace user operation
      ∧ (PathAccepted request.policy operation.proposedDestination operation.proposedName →
        ¬ engine.SharesPlace run request position history →
          (CarriedOut history.input operation
            ↔ (engine.undecided request history.input).conflictState = .none
              ∧ (engine.leftByMachine request history.input = true →
                differs history.input operation = false))) := by
  have hmem := List.mem_of_getElem? hhistory
  have hdecided := History.decided hmem huser
  obtain ⟨hfolders, hname⟩ :=
    History.final_place_of_override engine request.policy hdecided.override
  refine ⟨⟨?_, ?_⟩, fun haccepted halone => ?_⟩
  · intro haction destination hgiven
    rw [hfolders, hdecided.destination]
    exact (applyOverride_given user _ _ _).1 haction destination hgiven
  · intro haction name hgiven
    rw [hname, hdecided.name]
    exact (applyOverride_given user _ _ _).2 haction name hgiven
  · rw [hfolders, hname, hdecided.destination, hdecided.name] at haccepted
    have hconflict : history.placed.operation.conflictState
        = (engine.undecided request history.input).conflictState := by
      rw [hdecided.conflict, checked_conflict_of_accepted haccepted, applyOverride_conflict]
      rfl
    rw [History.final_of_alone hhistory hdecided.override halone, ← hconflict,
      ← placed_kind_moves hmem huser hchanges hsingle]
    exact ⟨fun hcarried => ⟨hcarried.conflict, hcarried.kind⟩,
      fun hboth => ⟨hboth.1, hboth.2⟩⟩

/-! ## Files a user leaves where they are -/

/-- The file is kept at its path, without a conflict. -/
structure KeptWithoutConflict (input : OrganizationSourceInput)
    (operation : OrganizationProposalOperation) : Prop where
  kind : operation.operationKind = .keepInPlace
  destination : operation.proposedDestination = input.sourceParent
  name : operation.proposedName = input.sourceName
  conflict : operation.conflictState = .none

theorem applyOverride_kept {user : OrganizationProposalOverride}
    (h : keepsInPlace (some user) = true) (review : String) (input : OrganizationSourceInput)
    (machine : Placement) :
    (applyOverride user review input machine).destination = input.sourceParent
      ∧ (applyOverride user review input machine).name = input.sourceName := by
  simp only [keepsInPlace, Option.any_some, Bool.or_eq_true, decide_eq_true_eq] at h
  unfold applyOverride
  rcases h with h | h <;> rw [h] <;> exact ⟨rfl, rfl⟩

/-- **A decision to keep a file** leaves it at its path; it has no conflict exactly when the path is
one a user may give and the machine's own proposal has none. -/
theorem kept_without_conflict_iff {history : History}
    (hmem : history ∈ engine.histories run request) {user : OrganizationProposalOverride}
    (huser : request.overrideOf history.input.fileId = some user)
    (hkeeps : keepsInPlace (some user) = true)
    (hsingle : history.input.duplicateNoAction = false) :
    KeptWithoutConflict history.input (history.final engine request.policy)
      ↔ (engine.undecided request history.input).conflictState = .none
        ∧ PathAccepted request.policy history.input.sourceParent history.input.sourceName := by
  obtain ⟨-, ⟨position, hcompiled⟩, -⟩ := mem_histories hmem
  have hdecided := History.decided hmem huser
  obtain ⟨hfolders, hname⟩ := applyOverride_kept hkeeps request.reviewFolder history.input
    (engine.undecidedPlacement request history.input)
  have hkind := compileInput_kind engine run request history.input position
  simp only [← hcompiled, hsingle, huser, hkeeps, Bool.true_or, Bool.false_eq_true, if_false,
    if_true] at hkind
  have hkept := hdecided.kind.trans hkind
  rw [History.final_of_leftAlone _ (by simp [isLeftAlone, hkept])]
  have haccepted : PathAccepted request.policy history.input.sourceParent history.input.sourceName
      ↔ PathAccepted request.policy
        (applyOverride user request.reviewFolder history.input
          (engine.undecidedPlacement request history.input)).destination
        (applyOverride user request.reviewFolder history.input
          (engine.undecidedPlacement request history.input)).name := by
    rw [hfolders, hname]
  rw [haccepted]
  constructor
  · intro h
    have hnone := hdecided.conflict.symm.trans h.conflict
    have hpath := not_not.1 fun hrefused => checked_conflict_of_refused hrefused hnone
    rw [checked_conflict_of_accepted hpath, applyOverride_conflict] at hnone
    exact ⟨hnone, hpath⟩
  · rintro ⟨hnone, hpath⟩
    refine ⟨hkept, hdecided.destination.trans hfolders, hdecided.name.trans hname, ?_⟩
    rw [hdecided.conflict, checked_conflict_of_accepted hpath, applyOverride_conflict]
    exact hnone

/-! ## Rules -/

/-- Of a file with a rule no folder may be left out. -/
theorem compileInput_required_ruled (engine : EngineContext) (run : BuildRun)
    {input : OrganizationSourceInput} {folders : List String}
    (hrule : input.ruledPlace request.policy = some folders) (position : Nat) :
    true ∉ (engine.compileInput run request input position).optionalTail := by
  cases huser : (request.overrideOf input.fileId).isSome with
  | true => exact compileInput_required_override input position huser
  | false =>
      by_cases hmode : request.consumerMode = true
      · exact compileInput_required hmode input position
      · obtain ⟨⟨kind, rule⟩, hwinning, hkind⟩ := Option.bind_eq_some_iff.1 hrule
        have hfalse : ∀ (names : List String), true ∉ (names.map fun name => (name, false)).map
            (·.2) := by
          intro names hmem
          simp at hmem
        unfold EngineContext.compileInput EngineContext.compileOperation
        rw [if_neg hmode]
        unfold EngineContext.compileProfessionalOperation EngineContext.makeDraft
        dsimp only
        rw [if_neg (by rw [huser]; exact Bool.noConfusion), hwinning]
        unfold Chosen.byRule
        cases kind with
        | project => exact nomatch hkind
        | preserve => exact hfalse _
        | destination =>
            obtain ⟨hfolders, hvalid⟩ := Option.filter_eq_some_iff.1 hkind
            obtain ⟨⟨destination, matched⟩, hdestination, rfl⟩ :=
              Option.map_eq_some_iff.1 hfolders
            simp only [Option.map_some, hdestination]
            rw [if_pos hvalid]
            exact hfalse _

/-- The place the bundle pass gives a file. -/
def EngineContext.placeInFolder (engine : EngineContext) (request : OrganizationBuildRequest)
    (input : OrganizationSourceInput) : Option BundlePlace :=
  if request.consumerMode then (engine.bundleOf request input.fileId).map (·.2) else none

theorem History.final_destination (engine : EngineContext) (policy : VirtualPathPolicy)
    (history : History) :
    (history.final engine policy).proposedDestination
      = history.placed.operation.proposedDestination := by
  have hstep : CollisionStep policy history.placed
      (engine.resolveCollision policy history.seen history.placed).2 :=
    resolveCollision_step history.seen history.placed
  unfold History.final
  generalize (engine.resolveCollision policy history.seen history.placed).2 = result at hstep ⊢
  cases hstep <;> rfl

/-- **A rule on a place** is followed exactly when the place the bundle pass gives the file is that
of the rule, or, without one, nothing is changed in it to make the path safe. -/
theorem ruled_place_iff {history : History} (hmem : history ∈ engine.histories run request)
    (huser : request.overrideOf history.input.fileId = none) {folders : List String}
    (hrule : history.input.ruledPlace request.policy = some folders) :
    (history.final engine request.policy).proposedDestination = folders
      ↔ (match engine.placeInFolder request history.input with
        | some place => place.destination
        | none => (request.policy.fitMachinePath folders
          (engine.nameFor request history.input)).destination) = folders := by
  obtain ⟨-, ⟨position, hcompiled⟩, hplaced⟩ := mem_histories hmem
  obtain ⟨-, -, hfile, hmachine, hstale, -, -⟩ :=
    compileInput_fields engine run request history.input position
  have hplacement := (compileInput_placement engine run request history.input position).1
  have hrequired : true ∉ history.compiled.optionalTail :=
    hcompiled ▸ compileInput_required_ruled engine run hrule position
  rw [← hcompiled] at hfile hmachine hstale
  rw [huser, Option.isSome_none] at hmachine
  simp only [← hcompiled, huser, decidedPlacement, EngineContext.undecidedPlacement,
    undecided_of_ruledPlace hrule] at hplacement
  rw [History.final_destination]
  unfold EngineContext.placeInFolder
  by_cases hmode : request.consumerMode = true
  · rw [if_pos hmode]
    have hway := hplaced.consumer hmode hrequired hmachine hstale
    rw [hfile] at hway
    cases hfound : engine.bundleOf request history.input.fileId with
    | none =>
        rw [hfound] at hway
        rw [hway.destination, hplacement]
        rfl
    | some found =>
        rw [hfound] at hway
        rw [hway.destination]
        rfl
  · rw [if_neg hmode]
    have hshort := (hplaced.professional (Bool.eq_false_iff.2 hmode)).1
    rw [(hshort.required hrequired).1, hplacement]

/-! ## Builds -/

/-- **What the user's decision decides**: in a full build that is not cancelled there is an operation
for each file, and for a file that is no duplicate it is told from the file when a decision on its
place is carried out, when a file that is to be kept has no conflict, and when a rule is followed. -/
theorem user_decides_iff (engine : EngineContext) (run : BuildRun)
    (request : OrganizationBuildRequest)
    (h : (engine.buildFull run request).status ≠ .cancelled) :
    (engine.buildFull run request).operations
        = (engine.histories run request).map (·.final engine request.policy)
      ∧ (engine.histories run request).map (·.input) = request.inputs
      ∧ ∀ (position : Nat) (history : History),
        (engine.histories run request)[position]? = some history →
        history.input.duplicateNoAction = false →
          let input := history.input
          let operation := history.final engine request.policy
          (∀ user, request.overrideOf input.fileId = some user → changesPlace user = true →
            GivenPlace user operation
              ∧ (PathAccepted request.policy operation.proposedDestination operation.proposedName →
                ¬ engine.SharesPlace run request position history →
                  (CarriedOut input operation
                    ↔ (engine.undecided request input).conflictState = .none
                      ∧ (engine.leftByMachine request input = true →
                        differs input operation = false))))
          ∧ (∀ user, request.overrideOf input.fileId = some user →
            keepsInPlace (some user) = true →
              (KeptWithoutConflict input operation
                ↔ (engine.undecided request input).conflictState = .none
                  ∧ PathAccepted request.policy input.sourceParent input.sourceName))
          ∧ (request.overrideOf input.fileId = none →
            ∀ folders, input.ruledPlace request.policy = some folders →
              (operation.proposedDestination = folders
                ↔ (match engine.placeInFolder request input with
                  | some place => place.destination
                  | none => (request.policy.fitMachinePath folders
                    (engine.nameFor request input)).destination) = folders)) := by
  refine ⟨buildFull_operations h, histories_inputs, fun position history hhistory hsingle => ?_⟩
  have hmem := List.mem_of_getElem? hhistory
  exact ⟨fun user huser hchanges => placeGiven_carriedOut_iff hhistory huser hchanges hsingle,
    fun user huser hkeeps => kept_without_conflict_iff hmem huser hkeeps hsingle,
    fun huser folders hrule => ruled_place_iff hmem huser hrule⟩

/-- The user wants a tool in a folder for programs. -/
private def toolOverride : OrganizationProposalOverride where
  fileId := 1
  action := .destination
  destination := some ["Programmes"]
  proposedName := none
  reason := none

/-- A single tool on the desktop. -/
private def looseTool : OrganizationBuildRequest :=
  sampleRequest true [sampleInput 1 "outil.exe" "outil.exe"] [toolOverride]

theorem user_decides_iff_looseTool :
    (sampleEngine.buildFull sampleBuildRun looseTool).operations
        = (sampleEngine.histories sampleBuildRun looseTool).map
          (·.final sampleEngine looseTool.policy)
      ∧ (sampleEngine.histories sampleBuildRun looseTool).map (·.input) = looseTool.inputs
      ∧ ∀ (position : Nat) (history : History),
        (sampleEngine.histories sampleBuildRun looseTool)[position]? = some history →
        history.input.duplicateNoAction = false →
          let input := history.input
          let operation := history.final sampleEngine looseTool.policy
          (∀ user, looseTool.overrideOf input.fileId = some user → changesPlace user = true →
            GivenPlace user operation
              ∧ (PathAccepted looseTool.policy operation.proposedDestination operation.proposedName →
                ¬ sampleEngine.SharesPlace sampleBuildRun looseTool position history →
                  (CarriedOut input operation
                    ↔ (sampleEngine.undecided looseTool input).conflictState = .none
                      ∧ (sampleEngine.leftByMachine looseTool input = true →
                        differs input operation = false))))
          ∧ (∀ user, looseTool.overrideOf input.fileId = some user →
            keepsInPlace (some user) = true →
              (KeptWithoutConflict input operation
                ↔ (sampleEngine.undecided looseTool input).conflictState = .none
                  ∧ PathAccepted looseTool.policy input.sourceParent input.sourceName))
          ∧ (looseTool.overrideOf input.fileId = none →
            ∀ folders, input.ruledPlace looseTool.policy = some folders →
              (operation.proposedDestination = folders
                ↔ (match sampleEngine.placeInFolder looseTool input with
                  | some place => place.destination
                  | none => (looseTool.policy.fitMachinePath folders
                    (sampleEngine.nameFor looseTool input)).destination) = folders)) :=
  user_decides_iff sampleEngine sampleBuildRun looseTool (by decide +kernel)

/-- The tool stays on the desktop, though the user wants it elsewhere, where nothing is. -/
theorem wanted_tool_kept :
    validateOverride toolOverride = .ok ()
      ∧ PathAccepted {} ["Programmes"] "outil.exe"
      ∧ (sampleEngine.buildFull sampleBuildRun looseTool).status = .readyForReview
      ∧ ∃ operation, (sampleEngine.buildFull sampleBuildRun looseTool).operations = [operation]
        ∧ operation.proposedDestination = ["Programmes"] ∧ operation.proposedName = "outil.exe"
        ∧ differs (sampleInput 1 "outil.exe" "outil.exe") operation = true
        ∧ ¬ CarriedOut (sampleInput 1 "outil.exe" "outil.exe") operation := by
  have hseen : (sampleEngine.buildFull sampleBuildRun looseTool).operations.map
      (fun operation => (operation.proposedDestination, operation.proposedName,
        differs (sampleInput 1 "outil.exe" "outil.exe") operation, operation.operationKind))
      = [(["Programmes"], "outil.exe", true, .keepInPlace)] := by
    decide +kernel
  obtain ⟨operation, _, hoperations, hoperation, hnil⟩ := List.map_eq_cons_iff.1 hseen
  obtain rfl := List.map_eq_nil_iff.1 hnil
  simp only [Prod.mk.injEq] at hoperation
  obtain ⟨hfolders, hname, hdiffers, hkept⟩ := hoperation
  refine ⟨by decide +kernel, ⟨by decide +kernel, by decide +kernel, by decide +kernel⟩,
    by decide +kernel, operation, hoperations, hfolders, hname, hdiffers, fun hcarried => ?_⟩
  rcases hcarried.kind hdiffers with hmoved | hmoved | hmoved <;>
    exact ProposalOperationKind.noConfusion (hkept.symm.trans hmoved)

end Zemo.Organizer
