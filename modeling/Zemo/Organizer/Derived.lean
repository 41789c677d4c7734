import Zemo.Organizer.Carried
import Zemo.Organizer.Storable

set_option autoImplicit false

/-! # The way of each operation through a full build

A full build compiles every file, then runs the passes over all drafts, each of which keeps their
order. The history of an operation is its file, the draft that was compiled for it, the draft the
collision pass comes to, and the places that were taken by then. -/

namespace Zemo.Organizer

open VirtualPathPolicy

/-- The way of one operation through a full build. -/
structure History where
  input : OrganizationSourceInput
  compiled : DraftOperation
  seen : List String
  placed : DraftOperation

variable {engine : EngineContext} {run : BuildRun} {request : OrganizationBuildRequest}

/-- The histories of the operations of a full build. -/
def EngineContext.histories (engine : EngineContext) (run : BuildRun)
    (request : OrganizationBuildRequest) : List History :=
  let compiled := engine.compileInputs run request request.inputs
  List.zipWith
    (fun start later => { input := start.1, compiled := start.2, seen := later.1, placed := later.2 })
    (request.inputs.zip compiled)
    (engine.askedBefore request.policy [] (engine.placeDrafts request compiled))

/-- The operation a history ends in. -/
def History.final (engine : EngineContext) (policy : VirtualPathPolicy) (history : History) :
    OrganizationProposalOperation :=
  (engine.resolveCollision policy history.seen history.placed).2.operation

/-! ## The passes before the collision pass -/

/-- What the group policy makes of a draft: folders are left out at the end of its destination. -/
structure Shortened (draft result : DraftOperation) : Prop where
  destination : result.operation.proposedDestination <+: draft.operation.proposedDestination
  name : result.operation.proposedName = draft.operation.proposedName
  kind : result.operation.operationKind = draft.operation.operationKind
  length : result.operation.proposedPathLength = draft.operation.proposedPathLength
  conflict : result.operation.conflictState = draft.operation.conflictState
  machineName : result.operation.machineName = draft.operation.machineName
  override : result.operation.userOverride = draft.operation.userOverride
  stale : result.operation.stale = draft.operation.stale
  fileId : result.operation.fileId = draft.operation.fileId
  source : result.operation.source = draft.operation.source
  sourceName : result.operation.sourceName = draft.operation.sourceName
  required : true ∉ draft.optionalTail →
    result.operation.proposedDestination = draft.operation.proposedDestination
      ∧ true ∉ result.optionalTail

theorem Shortened.refl (draft : DraftOperation) : Shortened draft draft :=
  ⟨List.prefix_rfl, rfl, rfl, rfl, rfl, rfl, rfl, rfl, rfl, rfl, rfl, fun h => ⟨rfl, h⟩⟩

theorem Shortened.trans {a b c : DraftOperation} (h : Shortened a b) (h' : Shortened b c) :
    Shortened a c where
  destination := h'.destination.trans h.destination
  name := h'.name.trans h.name
  kind := h'.kind.trans h.kind
  length := h'.length.trans h.length
  conflict := h'.conflict.trans h.conflict
  machineName := h'.machineName.trans h.machineName
  override := h'.override.trans h.override
  stale := h'.stale.trans h.stale
  fileId := h'.fileId.trans h.fileId
  source := h'.source.trans h.source
  sourceName := h'.sourceName.trans h.sourceName
  required := fun hrequired =>
    have hfirst := h.required hrequired
    have hsecond := h'.required hfirst.2
    ⟨hsecond.1.trans hfirst.1, hsecond.2⟩

theorem Shortened.popped {draft : DraftOperation} (h : draft.optionalTail.getLast? = some true) :
    Shortened draft draft.popped :=
  ⟨List.dropLast_prefix _, rfl, rfl, rfl, rfl, rfl, rfl, rfl, rfl, rfl, rfl,
    fun hnot => absurd (List.mem_of_getLast? h) hnot⟩

theorem Shortened.remeasured (draft : DraftOperation) :
    Shortened draft (engine.remeasured draft) :=
  ⟨List.prefix_rfl, rfl, rfl, rfl, rfl, rfl, rfl, rfl, rfl, rfl, rfl, fun h => ⟨rfl, h⟩⟩

/-- The depth is that of the destination. -/
def DepthFits (draft : DraftOperation) : Prop :=
  draft.operation.proposedDepth = draft.operation.proposedDestination.length

theorem applyMinimumGroupPolicy_shortened (engine : EngineContext) (minimumGroupSize : Nat) (drafts : List DraftOperation) :
    List.Forall₂ (fun draft result => Shortened draft result ∧ (DepthFits draft → DepthFits result))
      drafts (engine.applyMinimumGroupPolicy minimumGroupSize drafts) := by
  refine Pointwise.and (applyMinimumGroupPolicy_forall₂ Shortened.refl
    (fun _ _ _ h h' => h.trans h') (fun _ h => .popped h) .remeasured minimumGroupSize drafts) ?_
  unfold EngineContext.applyMinimumGroupPolicy
  by_cases hsmall : minimumGroupSize ≤ 1
  · rw [if_pos hsmall]
    exact List.forall₂_same.2 fun _ _ h => h
  · rw [if_neg hsmall]
    refine Pointwise.comp (groupLoop_forall₂ (R := fun _ _ => True) (fun _ => trivial)
      (fun _ _ _ _ _ => trivial) (fun _ _ => trivial) minimumGroupSize _ drafts)
      (Pointwise.of_map (R := fun _ result => DepthFits result) fun _ _ => rfl)
      fun _ _ _ _ h _ => h

/-- What the passes before the collision pass make of a draft. -/
def EngineContext.Placed (engine : EngineContext) (request : OrganizationBuildRequest)
    (draft result : DraftOperation) : Prop :=
  ∃ grouped, Shortened draft grouped ∧ (DepthFits draft → DepthFits grouped)
    ∧ result = if request.consumerMode then
        engine.bundleStep request.inputs request.consumerRootKind request.policy grouped
      else grouped

theorem placeDrafts_placed (drafts : List DraftOperation) :
    List.Forall₂ (engine.Placed request) drafts (engine.placeDrafts request drafts) := by
  have hgroup := applyMinimumGroupPolicy_shortened engine request.minimumGroupSize drafts
  unfold EngineContext.placeDrafts EngineContext.Placed
  by_cases hmode : request.consumerMode = true
  · simp only [hmode, if_true, applyConsumerFolderBundlePolicy_eq]
    exact Pointwise.comp hgroup (Pointwise.of_map (R := fun grouped result =>
        result = engine.bundleStep request.inputs request.consumerRootKind request.policy grouped)
      fun _ _ => rfl) fun draft grouped result h hresult => ⟨grouped, h.1, h.2, hresult⟩
  · simp only [hmode]
    exact hgroup.imp fun draft grouped h => ⟨grouped, h.1, h.2, rfl⟩

/-! ## The histories of a build -/

theorem length_askedBefore (policy : VirtualPathPolicy) (seen : List String)
    (drafts : List DraftOperation) :
    (engine.askedBefore policy seen drafts).length = drafts.length := by
  have h : ((engine.askedBefore policy seen drafts).map (·.2)).length = drafts.length :=
    congrArg List.length (askedBefore_drafts seen drafts)
  rwa [List.length_map] at h

theorem length_placeDrafts :
    (engine.placeDrafts request (engine.compileInputs run request request.inputs)).length
      = (request.inputs.zip (engine.compileInputs run request request.inputs)).length := by
  rw [← (placeDrafts_placed _).length_eq, List.length_zip, EngineContext.compileInputs,
    List.length_mapIdx, min_self]

/-- There is a history for each file. -/
theorem histories_inputs :
    (engine.histories run request).map (·.input) = request.inputs := by
  have hzip : (request.inputs.zip (engine.compileInputs run request request.inputs)).length
      = request.inputs.length := by
    rw [List.length_zip, EngineContext.compileInputs, List.length_mapIdx, min_self]
  rw [EngineContext.histories, List.map_zipWith]
  refine List.ext_getElem ?_ fun i h1 h2 => ?_
  · rw [List.length_zipWith, length_askedBefore, length_placeDrafts, min_self, hzip]
  · rw [List.getElem_zipWith, List.getElem_zip]

/-- **The operations of a full build** are those its histories end in. -/
theorem fullDrafts_eq_histories :
    (engine.fullDrafts run request).map (·.operation)
      = (engine.histories run request).map (·.final engine request.policy) := by
  rw [EngineContext.fullDrafts, EngineContext.resolveCollisions, resolveCollisionsFrom_eq,
    EngineContext.histories, List.map_map, List.map_zipWith]
  refine List.ext_getElem ?_ fun i h1 h2 => ?_
  · rw [List.length_map, List.length_zipWith, length_askedBefore, length_placeDrafts, min_self]
  · rw [List.getElem_map, List.getElem_zipWith]
    rfl

/-- **What is known of a history**: its draft was compiled for its file, and the passes made what is
placed of it. -/
theorem mem_histories {history : History} (h : history ∈ engine.histories run request) :
    history.input ∈ request.inputs
      ∧ (∃ position, history.compiled = engine.compileInput run request history.input position)
      ∧ engine.Placed request history.compiled history.placed := by
  have hcompiled : List.Forall₂ (fun input draft => ∃ position,
      draft = engine.compileInput run request input position) request.inputs
      (engine.compileInputs run request request.inputs) :=
    Pointwise.of_mapIdx fun position input _ => ⟨position, rfl⟩
  have hplaced : List.Forall₂ (fun start later => engine.Placed request start.2 later.2)
      (request.inputs.zip (engine.compileInputs run request request.inputs))
      (engine.askedBefore request.policy []
        (engine.placeDrafts request (engine.compileInputs run request request.inputs))) := by
    have hstart : (request.inputs.zip (engine.compileInputs run request request.inputs)).map Prod.snd
        = engine.compileInputs run request request.inputs :=
      List.map_snd_zip hcompiled.length_eq.ge
    have hall : List.Forall₂ (engine.Placed request)
        ((request.inputs.zip (engine.compileInputs run request request.inputs)).map Prod.snd)
        ((engine.askedBefore request.policy [] (engine.placeDrafts request
          (engine.compileInputs run request request.inputs))).map Prod.snd) := by
      rw [hstart, askedBefore_drafts]
      exact placeDrafts_placed _
    rwa [List.forall₂_map_left_iff, List.forall₂_map_right_iff] at hall
  obtain ⟨⟨input, draft⟩, hstart, later, -, hlater, rfl⟩ := Pointwise.exists_of_mem_zipWith hplaced h
  exact ⟨(List.of_mem_zip hstart).1, List.forall₂_zip hcompiled hstart, hlater⟩

/-- The operations of a full build that is not cancelled. -/
theorem buildFull_operations (h : (engine.buildFull run request).status ≠ .cancelled) :
    (engine.buildFull run request).operations
      = (engine.histories run request).map (·.final engine request.policy) := by
  unfold EngineContext.buildFull at h ⊢
  cases hstopped : (List.range request.inputs.length).find? run.isCancelled with
  | some stopped =>
      rw [hstopped] at h
      exact absurd rfl h
  | none => exact fullDrafts_eq_histories

end Zemo.Organizer

/-! ## Fields that follow from the place of a file

The kind of an operation, the length of its path and its depth are computed when the operation is
compiled. The passes change destinations and names afterwards and compute only some of the fields
again. Which operations end with fields that fit their place is told from what the passes did. -/

namespace Zemo.Organizer

open VirtualPathPolicy

variable {engine : EngineContext} {run : BuildRun} {request : OrganizationBuildRequest}

/-! ## Fields that fit -/

/-- The folder the file of an operation is in. -/
def ownFolder (operation : OrganizationProposalOperation) : List String :=
  sourceParentComponents operation.source.relativePath operation.sourceName

/-- The file stays in its folder. -/
def staysInFolder (operation : OrganizationProposalOperation) : Bool :=
  pathsEqual (ownFolder operation) operation.proposedDestination

/-- The file keeps its name. -/
def keepsName (operation : OrganizationProposalOperation) : Bool :=
  eqIgnoreAsciiCase operation.sourceName operation.proposedName

/-- The kind of an operation fits its place. -/
structure KindFits (operation : OrganizationProposalOperation) : Prop where
  kept : operation.operationKind = .keepInPlace
    ↔ staysInFolder operation = true ∧ keepsName operation = true
  renamed : operation.operationKind = .renameProposal
    ↔ staysInFolder operation = true ∧ keepsName operation = false
  moved : (operation.operationKind = .moveProposal
      ∨ (operation.operationKind = .toReview ∧ operation.proposedDestination = ["TO_REVIEW"]))
    ↔ staysInFolder operation = false

/-- **The derived fields agree with the place.** -/
structure FieldsAgree (operation : OrganizationProposalOperation) : Prop where
  kind : KindFits operation
  length : operation.proposedPathLength
    = pathLengthUtf16 operation.proposedDestination operation.proposedName
  depth : operation.proposedDepth = operation.proposedDestination.length

/-- The kind of an operation with this place, when it is not to be reviewed. -/
def kindAt (operation : OrganizationProposalOperation) : ProposalOperationKind :=
  if staysInFolder operation then
    if keepsName operation then .keepInPlace else .renameProposal
  else .moveProposal

theorem kindFits_of_kindAt {operation : OrganizationProposalOperation}
    (hkind : operation.operationKind = kindAt operation) : KindFits operation := by
  unfold kindAt at hkind
  cases hstays : staysInFolder operation with
  | false =>
      rw [hstays, if_neg Bool.noConfusion] at hkind
      refine ⟨?_, ?_, ?_⟩ <;> simp [hkind, hstays]
  | true =>
      rw [hstays, if_pos rfl] at hkind
      cases hname : keepsName operation with
      | false =>
          rw [hname, if_neg Bool.noConfusion] at hkind
          refine ⟨?_, ?_, ?_⟩ <;> simp [hkind, hstays, hname]
      | true =>
          rw [hname, if_pos rfl] at hkind
          refine ⟨?_, ?_, ?_⟩ <;> simp [hkind, hstays, hname]

/-- The kind of an operation that is not to be reviewed is settled by its place. -/
theorem kindFits_iff {operation : OrganizationProposalOperation}
    (hkind : operation.operationKind ≠ .toReview) :
    KindFits operation ↔ operation.operationKind = kindAt operation := by
  refine ⟨fun h => ?_, kindFits_of_kindAt⟩
  unfold kindAt
  cases hstays : staysInFolder operation with
  | false =>
      rw [if_neg Bool.noConfusion]
      exact (h.moved.2 hstays).resolve_right fun hreview => hkind hreview.1
  | true =>
      rw [if_pos rfl]
      cases hname : keepsName operation with
      | false =>
          rw [if_neg Bool.noConfusion]
          exact h.renamed.2 ⟨hstays, hname⟩
      | true =>
          rw [if_pos rfl]
          exact h.kept.2 ⟨hstays, hname⟩

/-- An operation to be reviewed is one that moves its file to the folder for that. -/
theorem kindFits_review {operation : OrganizationProposalOperation}
    (hkind : operation.operationKind = .toReview) :
    KindFits operation
      ↔ operation.proposedDestination = ["TO_REVIEW"] ∧ staysInFolder operation = false := by
  constructor
  · intro h
    cases hstays : staysInFolder operation with
    | false => exact ⟨((h.moved.2 hstays).resolve_left (by rw [hkind]; decide)).2, rfl⟩
    | true =>
        cases hname : keepsName operation with
        | false => exact absurd (h.renamed.2 ⟨hstays, hname⟩) (by rw [hkind]; decide)
        | true => exact absurd (h.kept.2 ⟨hstays, hname⟩) (by rw [hkind]; decide)
  · rintro ⟨hreview, hstays⟩
    refine ⟨?_, ?_, iff_of_true (.inr ⟨hkind, hreview⟩) hstays⟩ <;> simp [hkind, hstays]

/-! ## Compiled drafts -/

/-- The decision of the one-click organization for a file. -/
def EngineContext.decisionFor (engine : EngineContext) (request : OrganizationBuildRequest)
    (input : OrganizationSourceInput) : ConsumerDecision :=
  let documentType := normalizedSignal input.documentType "unknown"
  engine.decideConsumerOrganization input.sourceRelativePath input.sourceName
    request.consumerRootKind (if documentType = "unknown" then none else some documentType)

/-- What a compiled draft takes over from its file, and what is measured of it. -/
theorem compileInput_fields (engine : EngineContext) (run : BuildRun)
    (request : OrganizationBuildRequest) (input : OrganizationSourceInput) (position : Nat) :
    let draft := engine.compileInput run request input position
    draft.operation.source.relativePath = input.sourceRelativePath
      ∧ draft.operation.sourceName = input.sourceName
      ∧ draft.operation.fileId = input.fileId
      ∧ draft.operation.userOverride = (request.overrideOf input.fileId).isSome
      ∧ draft.operation.stale = false
      ∧ draft.operation.proposedPathLength
        = pathLengthUtf16 draft.operation.proposedDestination draft.operation.proposedName
      ∧ DepthFits draft := by
  unfold EngineContext.compileInput EngineContext.compileOperation
  cases request.consumerMode with
  | true => exact ⟨rfl, rfl, rfl, rfl, rfl, rfl, rfl⟩
  | false => exact ⟨rfl, rfl, rfl, rfl, rfl, rfl, rfl⟩

theorem compileInput_kind_professional (engine : EngineContext) (run : BuildRun)
    (hmode : request.consumerMode = false)
    (input : OrganizationSourceInput) (position : Nat)
    (huser : request.overrideOf input.fileId = none) (hdup : input.duplicateNoAction = false) :
    let draft := engine.compileInput run request input position
    draft.operation.operationKind
      = if draft.operation.proposedDestination = ["TO_REVIEW"] then .toReview
        else placedKind input draft.operation.proposedDestination draft.operation.proposedName := by
  unfold EngineContext.compileInput EngineContext.compileOperation
  rw [hmode, huser]
  unfold EngineContext.compileProfessionalOperation
  simp only [EngineContext.makeDraft, hdup, keepsInPlace, Option.any_none, Bool.false_eq_true,
    if_false]

theorem compileInput_kind_consumer (hmode : request.consumerMode = true)
    (input : OrganizationSourceInput) (position : Nat)
    (huser : request.overrideOf input.fileId = none) (hdup : input.duplicateNoAction = false)
    (hleft : (engine.decisionFor request input).leaveInPlace = false) :
    let draft := engine.compileInput run request input position
    draft.operation.operationKind
      = placedKind input draft.operation.proposedDestination draft.operation.proposedName := by
  unfold EngineContext.decisionFor at hleft
  unfold EngineContext.compileInput EngineContext.compileOperation
  rw [hmode, huser]
  unfold EngineContext.compileConsumerOperation
  simp only at hleft ⊢
  simp only [EngineContext.makeDraft, hdup, hleft, keepsInPlace, Option.any_none,
    Bool.false_eq_true, if_false, Bool.or_false]
  rfl

/-- No folder of a one-click organization may be left out. -/
theorem compileInput_required (hmode : request.consumerMode = true)
    (input : OrganizationSourceInput) (position : Nat) :
    true ∉ (engine.compileInput run request input position).optionalTail := by
  unfold EngineContext.compileInput EngineContext.compileOperation
  rw [hmode]
  simp only [if_true]
  unfold EngineContext.compileConsumerOperation EngineContext.makeDraft
  dsimp only
  cases request.overrideOf input.fileId with
  | some user =>
      intro hmem
      obtain ⟨_, -, hfalse⟩ := List.mem_map.1 hmem
      cases hfalse
  | none =>
      intro hmem
      obtain ⟨folder, hfolder, hoptional⟩ := List.mem_map.1 hmem
      have hrequired := byRule_required (fun folder hfolder => by
        obtain ⟨_, -, rfl⟩ := List.mem_map.1 hfolder
        rfl) folder hfolder
      cases hoptional.symm.trans hrequired

/-! ## Suffixes -/

/-- The suffix the collision pass finds for a draft. -/
def EngineContext.searchedSuffix (engine : EngineContext) (policy : VirtualPathPolicy)
    (seen : List String) (draft : DraftOperation) : Nat :=
  let key := engine.placeKey draft.operation
  let ordinal := seen.count key + 1
  searchSuffix (fun suffix =>
      collisionKey engine.toLowercase draft.operation.proposedDestination
        (collisionName draft.operation.proposedName suffix policy.maximumFilenameUtf16)
          ∈ key :: seen)
    (maximumSuffix - ordinal) ordinal

/-- The name with the suffix that was found. -/
def EngineContext.searchedName (engine : EngineContext) (policy : VirtualPathPolicy)
    (seen : List String) (draft : DraftOperation) : String :=
  collisionName draft.operation.proposedName (engine.searchedSuffix policy seen draft)
    policy.maximumFilenameUtf16

/-- The collision pass asks for a name of its own for a draft: the draft is not the first of its
place, and neither kept nor of the user. -/
def EngineContext.asksForName (engine : EngineContext) (seen : List String)
    (draft : DraftOperation) : Bool :=
  !isLeftAlone draft.operation && decide (engine.placeKey draft.operation ∈ seen)
    && !draft.operation.userOverride

/-- The name that was found can be given. -/
def EngineContext.nameIsFree (engine : EngineContext) (policy : VirtualPathPolicy)
    (seen : List String) (draft : DraftOperation) : Bool :=
  let name := engine.searchedName policy seen draft
  decide (collisionKey engine.toLowercase draft.operation.proposedDestination name
      ∉ engine.placeKey draft.operation :: seen)
    && decide (pathLengthUtf16 draft.operation.proposedDestination name
      ≤ policy.maximumPathUtf16)

/-- **What the collision pass makes of a draft**: the draft under another name, the draft as it is,
or a conflict. -/
theorem resolveCollision_eq (engine : EngineContext) (policy : VirtualPathPolicy)
    (seen : List String) (draft : DraftOperation) :
    (engine.asksForName seen draft = false
        ∧ ((engine.resolveCollision policy seen draft).2 = draft
          ∨ (engine.resolveCollision policy seen draft).2.operation.conflictState
            = .destinationCollision))
      ∨ (engine.asksForName seen draft = true ∧ engine.nameIsFree policy seen draft = true
        ∧ (engine.resolveCollision policy seen draft).2
          = draft.suffixed (engine.searchedName policy seen draft))
      ∨ (engine.asksForName seen draft = true ∧ engine.nameIsFree policy seen draft = false
        ∧ (engine.resolveCollision policy seen draft).2.operation.conflictState
          = .destinationCollision) := by
  unfold EngineContext.asksForName
  by_cases hfirst : engine.PlaceFree seen draft.operation
  · refine .inl ⟨?_, .inl (resolveCollision_of_free hfirst)⟩
    rcases hfirst with hleft | hnew
    · simp [hleft]
    · simp [hnew]
  · obtain ⟨hmoved, hasked⟩ := not_or.1 hfirst
    rw [not_not] at hasked
    have hcount := List.count_pos_iff.2 hasked
    unfold EngineContext.resolveCollision
    rw [if_neg hmoved]
    simp only
    rw [if_neg (by omega)]
    by_cases huser : draft.operation.userOverride = true
    · exact .inl ⟨by simp [huser], .inr (by rw [if_pos huser]; rfl)⟩
    · have hasks : (!isLeftAlone draft.operation
          && decide (engine.placeKey draft.operation ∈ seen) && !draft.operation.userOverride)
          = true := by
        simp [hmoved, hasked, huser]
      rw [if_neg huser]
      refine .inr ?_
      by_cases hfree : engine.nameIsFree policy seen draft = true
      · refine .inl ⟨hasks, hfree, ?_⟩
        unfold EngineContext.nameIsFree EngineContext.searchedName EngineContext.searchedSuffix
          at hfree
        simp only [Bool.and_eq_true, decide_eq_true_eq] at hfree
        rw [if_neg (not_or.2 ⟨hfree.1, Nat.not_lt.2 hfree.2⟩)]
        rfl
      · refine .inr ⟨hasks, Bool.eq_false_iff.2 hfree, ?_⟩
        unfold EngineContext.nameIsFree EngineContext.searchedName EngineContext.searchedSuffix
          at hfree
        simp only [Bool.and_eq_true, decide_eq_true_eq, not_and_or, not_not, Nat.not_le] at hfree
        rw [if_pos hfree]
        rfl

end Zemo.Organizer
