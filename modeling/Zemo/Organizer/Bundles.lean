import Zemo.Organizer.Derived

set_option autoImplicit false

/-! # What the bundle pass makes of a draft

A file with a place of its own in a folder that is kept together goes to that place, whatever was
compiled for it. Every other file keeps what the passes before have made of it, except for the
conflict that says a path is too long. -/

namespace Zemo.Organizer

open VirtualPathPolicy

variable {engine : EngineContext} {run : BuildRun} {request : OrganizationBuildRequest}

/-- The input the bundle pass reads for a file, with the place it finds for it, when the path there
can be fitted. -/
def EngineContext.bundleOf (engine : EngineContext) (request : OrganizationBuildRequest)
    (fileId : FileId) : Option (OrganizationSourceInput × BundlePlace) :=
  (inputOf request.inputs fileId).bind fun input =>
    ((engine.bundlePlace request.inputs request.consumerRootKind request.policy input).filter
      fun place => (request.policy.fitMachinePath place.destination input.sourceName).valid).map
      (input, ·)

/-- What no pass changes in a draft. -/
structure SameFile (draft result : DraftOperation) : Prop where
  override : result.operation.userOverride = draft.operation.userOverride
  stale : result.operation.stale = draft.operation.stale
  fileId : result.operation.fileId = draft.operation.fileId
  source : result.operation.source = draft.operation.source
  sourceName : result.operation.sourceName = draft.operation.sourceName

theorem SameFile.trans {a b c : DraftOperation} (h : SameFile a b) (h' : SameFile b c) :
    SameFile a c :=
  ⟨h'.override.trans h.override, h'.stale.trans h.stale, h'.fileId.trans h.fileId,
    h'.source.trans h.source, h'.sourceName.trans h.sourceName⟩

theorem Shortened.sameFile {draft result : DraftOperation} (h : Shortened draft result) :
    SameFile draft result :=
  ⟨h.override, h.stale, h.fileId, h.source, h.sourceName⟩

/-- The draft of a file that goes to a place in its folder. -/
structure Together (input : OrganizationSourceInput) (place : BundlePlace)
    (draft result : DraftOperation) : Prop where
  file : SameFile draft result
  destination : result.operation.proposedDestination = place.destination
  name : result.operation.proposedName = input.sourceName
  kind : result.operation.operationKind = .moveProposal
  conflict : result.operation.conflictState = .none
  length : result.operation.proposedPathLength
    = pathLengthUtf16 place.destination input.sourceName
  depth : DepthFits result

/-- The draft of a file that is not put together with others. -/
structure Apart (draft result : DraftOperation) : Prop where
  file : SameFile draft result
  destination : result.operation.proposedDestination = draft.operation.proposedDestination
  name : result.operation.proposedName = draft.operation.proposedName
  kind : result.operation.operationKind = draft.operation.operationKind
  length : result.operation.proposedPathLength = draft.operation.proposedPathLength
  depth : DepthFits draft → DepthFits result
  conflict : result.operation.conflictState = draft.operation.conflictState
    ∨ result.operation.conflictState = .pathTooLong

theorem Apart.refl (draft : DraftOperation) : Apart draft draft :=
  ⟨⟨rfl, rfl, rfl, rfl, rfl⟩, rfl, rfl, rfl, rfl, fun h => h, .inl rfl⟩

theorem bundled_together {policy : VirtualPathPolicy} {input : OrganizationSourceInput}
    {place : BundlePlace} (draft : DraftOperation)
    (hvalid : (policy.fitMachinePath place.destination input.sourceName).valid = true) :
    Together input place draft (draft.bundled policy input place) := by
  unfold DraftOperation.bundled
  simp only
  rw [if_neg (by rw [hvalid]; exact Bool.noConfusion)]
  exact ⟨⟨rfl, rfl, rfl, rfl, rfl⟩, rfl, rfl, rfl, rfl, rfl, rfl⟩

theorem bundled_apart {policy : VirtualPathPolicy} {input : OrganizationSourceInput}
    {place : BundlePlace} (draft : DraftOperation)
    (hinvalid : (policy.fitMachinePath place.destination input.sourceName).valid = false) :
    Apart draft (draft.bundled policy input place) := by
  unfold DraftOperation.bundled
  simp only
  rw [if_pos hinvalid]
  exact ⟨⟨rfl, rfl, rfl, rfl, rfl⟩, rfl, rfl, rfl, rfl, fun h => h, .inr rfl⟩

/-- **The bundle pass, for a file without a decision of the user.** -/
theorem bundleStep_cases (engine : EngineContext) (request : OrganizationBuildRequest)
    (draft : DraftOperation) (huser : draft.operation.userOverride = false)
    (hstale : draft.operation.stale = false) :
    let result := engine.bundleStep request.inputs request.consumerRootKind request.policy draft
    match engine.bundleOf request draft.operation.fileId with
    | some (input, place) => Together input place draft result
    | none => Apart draft result := by
  unfold EngineContext.bundleOf EngineContext.bundleStep
  rw [huser, hstale]
  simp only [Bool.or_self, Bool.false_eq_true, if_false]
  cases inputOf request.inputs draft.operation.fileId with
  | none => exact .refl draft
  | some input =>
      simp only [Option.bind_some]
      cases engine.bundlePlace request.inputs request.consumerRootKind request.policy input with
      | none => exact .refl draft
      | some place =>
          simp only [Option.filter_some]
          cases hvalid : (request.policy.fitMachinePath place.destination input.sourceName).valid with
          | true => exact bundled_together draft hvalid
          | false => exact bundled_apart draft hvalid

/-- A file whose path in its folder cannot be fitted has a conflict. -/
theorem bundleStep_refused {draft : DraftOperation} {input : OrganizationSourceInput}
    {place : BundlePlace} (huser : draft.operation.userOverride = false)
    (hstale : draft.operation.stale = false)
    (hinput : inputOf request.inputs draft.operation.fileId = some input)
    (hplace : engine.bundlePlace request.inputs request.consumerRootKind request.policy input
      = some place)
    (hinvalid : (request.policy.fitMachinePath place.destination input.sourceName).valid = false) :
    (engine.bundleStep request.inputs request.consumerRootKind request.policy
      draft).operation.conflictState = .pathTooLong := by
  unfold EngineContext.bundleStep
  rw [huser, hstale, hinput]
  simp only [Bool.or_self, Bool.false_eq_true, if_false, hplace]
  unfold DraftOperation.bundled
  simp only
  rw [if_pos hinvalid]

/-- A file with a decision of the user is not looked at. -/
theorem bundleStep_override (draft : DraftOperation) (huser : draft.operation.userOverride = true) :
    engine.bundleStep request.inputs request.consumerRootKind request.policy draft = draft := by
  unfold EngineContext.bundleStep
  rw [huser, Bool.true_or, if_pos rfl]

theorem bundleStep_sameFile (draft : DraftOperation) :
    SameFile draft
      (engine.bundleStep request.inputs request.consumerRootKind request.policy draft) := by
  unfold EngineContext.bundleStep
  split
  · exact ⟨rfl, rfl, rfl, rfl, rfl⟩
  split
  · exact ⟨rfl, rfl, rfl, rfl, rfl⟩
  split
  · exact ⟨rfl, rfl, rfl, rfl, rfl⟩
  · unfold DraftOperation.bundled
    simp only
    split <;> exact ⟨rfl, rfl, rfl, rfl, rfl⟩

/-! ## Histories -/

theorem EngineContext.Placed.sameFile {draft result : DraftOperation}
    (h : engine.Placed request draft result) : SameFile draft result := by
  obtain ⟨grouped, hgrouped, -, rfl⟩ := h
  split
  · exact hgrouped.sameFile.trans (bundleStep_sameFile grouped)
  · exact hgrouped.sameFile

theorem resolveCollision_sameFile (policy : VirtualPathPolicy) (seen : List String)
    (draft : DraftOperation) :
    SameFile draft (engine.resolveCollision policy seen draft).2 := by
  have hstep : CollisionStep policy draft (engine.resolveCollision policy seen draft).2 :=
    resolveCollision_step seen draft
  generalize (engine.resolveCollision policy seen draft).2 = result at hstep ⊢
  cases hstep <;> exact ⟨rfl, rfl, rfl, rfl, rfl⟩

/-- What the group policy makes of a draft without optional folders. -/
theorem Shortened.apart {draft result : DraftOperation} (h : Shortened draft result)
    (hdepth : DepthFits draft → DepthFits result) (hrequired : true ∉ draft.optionalTail) :
    Apart draft result :=
  ⟨h.sameFile, (h.required hrequired).1, h.name, h.kind, h.length, hdepth, .inl h.conflict⟩

theorem Apart.trans {a b c : DraftOperation} (h : Apart a b) (h' : Apart b c) : Apart a c where
  file := h.file.trans h'.file
  destination := h'.destination.trans h.destination
  name := h'.name.trans h.name
  kind := h'.kind.trans h.kind
  length := h'.length.trans h.length
  depth := fun hdepth => h'.depth (h.depth hdepth)
  conflict := by
    rcases h'.conflict with hsame | hlong
    · rw [hsame]
      exact h.conflict
    · exact .inr hlong

theorem Together.of_apart {input : OrganizationSourceInput} {place : BundlePlace}
    {a b c : DraftOperation} (h : Apart a b) (h' : Together input place b c) :
    Together input place a c :=
  { h' with file := h.file.trans h'.file }

/-- **What is placed for a file of a one-click organization**, without a decision of the user. -/
theorem EngineContext.Placed.consumer {draft result : DraftOperation}
    (h : engine.Placed request draft result) (hmode : request.consumerMode = true) (hrequired : true ∉ draft.optionalTail)
    (huser : draft.operation.userOverride = false) (hstale : draft.operation.stale = false) :
    match engine.bundleOf request draft.operation.fileId with
    | some (input, place) => Together input place draft result
    | none => Apart draft result := by
  obtain ⟨grouped, hgrouped, hdepth, rfl⟩ := h
  rw [if_pos hmode]
  have happart := hgrouped.apart hdepth hrequired
  have hstep := bundleStep_cases engine request grouped
    (hgrouped.override.trans huser) (hgrouped.stale.trans hstale)
  simp only at hstep
  rw [hgrouped.fileId] at hstep
  split at hstep
  · exact hstep.of_apart happart
  · exact happart.trans hstep

theorem EngineContext.Placed.refused {draft result : DraftOperation}
    (h : engine.Placed request draft result) (hmode : request.consumerMode = true)
    (huser : draft.operation.userOverride = false) (hstale : draft.operation.stale = false)
    {input : OrganizationSourceInput} {place : BundlePlace}
    (hinput : inputOf request.inputs draft.operation.fileId = some input)
    (hplace : engine.bundlePlace request.inputs request.consumerRootKind request.policy input
      = some place)
    (hinvalid : (request.policy.fitMachinePath place.destination input.sourceName).valid = false) :
    result.operation.conflictState = .pathTooLong := by
  obtain ⟨grouped, hgrouped, -, rfl⟩ := h
  rw [if_pos hmode]
  exact bundleStep_refused (hgrouped.override.trans huser) (hgrouped.stale.trans hstale)
    (hgrouped.fileId ▸ hinput) hplace hinvalid

/-- What is placed for a file of a professional organization. -/
theorem EngineContext.Placed.professional {draft result : DraftOperation}
    (h : engine.Placed request draft result) (hmode : request.consumerMode = false) :
    Shortened draft result ∧ (DepthFits draft → DepthFits result) := by
  obtain ⟨grouped, hgrouped, hdepth, rfl⟩ := h
  rw [if_neg (by rw [hmode]; exact Bool.noConfusion)]
  exact ⟨hgrouped, hdepth⟩

/-- **What is placed for a file the user has decided on**: in either mode what was compiled. -/
theorem EngineContext.Placed.override {draft result : DraftOperation}
    (h : engine.Placed request draft result) (huser : draft.operation.userOverride = true) :
    Shortened draft result := by
  obtain ⟨grouped, hgrouped, -, rfl⟩ := h
  split
  · rwa [bundleStep_override grouped (hgrouped.override.trans huser)]
  · exact hgrouped

/-! ## The end of a history -/

/-- The collision pass moves no file that is left alone, and leaves no other file alone. -/
theorem History.isLeftAlone_final (policy : VirtualPathPolicy) (history : History) :
    isLeftAlone (history.final engine policy) = isLeftAlone history.placed.operation := by
  have hstep : CollisionStep policy history.placed
      (engine.resolveCollision policy history.seen history.placed).2 :=
    resolveCollision_step history.seen history.placed
  unfold History.final
  generalize (engine.resolveCollision policy history.seen history.placed).2 = result at hstep ⊢
  cases hstep with
  | kept => rfl
  | ofUser code explanation hmoved huser => exact hmoved.symm
  | unresolved code explanation hmoved hmachine => exact hmoved.symm
  | suffixed suffix hmoved hmachine hshort => rfl

theorem History.final_of_leftAlone (policy : VirtualPathPolicy) {history : History}
    (h : isLeftAlone history.placed.operation = true) :
    history.final engine policy = history.placed.operation := by
  unfold History.final
  rw [resolveCollision_of_free (.inl h)]

theorem History.final_fileId {history : History} (hmem : history ∈ engine.histories run request) :
    (history.final engine request.policy).fileId = history.input.fileId := by
  obtain ⟨-, ⟨position, hcompiled⟩, hplaced⟩ := mem_histories hmem
  have hfinal : SameFile history.placed
      (engine.resolveCollision request.policy history.seen history.placed).2 :=
    resolveCollision_sameFile _ _ _
  calc (history.final engine request.policy).fileId
      = history.placed.operation.fileId := hfinal.fileId
    _ = history.compiled.operation.fileId := hplaced.sameFile.fileId
    _ = history.input.fileId := by
      rw [hcompiled]
      exact (compileInput_fields engine run request history.input position).2.2.1

/-- A draft of the machine the collision pass asks no name for ends as it was placed. -/
theorem History.final_of_not_asked (policy : VirtualPathPolicy) {history : History}
    (hmachine : history.placed.operation.userOverride = false)
    (hasks : engine.asksForName history.seen history.placed = false) :
    history.final engine policy = history.placed.operation := by
  unfold History.final
  refine congrArg DraftOperation.operation (resolveCollision_of_free ?_)
  unfold EngineContext.asksForName at hasks
  rw [hmachine] at hasks
  by_cases hleft : isLeftAlone history.placed.operation = true
  · exact .inl hleft
  · exact .inr fun hseen => by simp [hleft, hseen] at hasks

/-- A draft a name is asked for ends with the conflict resolved, when the name found is free. -/
theorem History.final_conflict_of_asked (policy : VirtualPathPolicy) {history : History}
    (hasks : engine.asksForName history.seen history.placed = true) :
    (history.final engine policy).conflictState
      = if engine.nameIsFree policy history.seen history.placed then .autoResolved
        else .destinationCollision := by
  unfold History.final
  rcases resolveCollision_eq engine policy history.seen history.placed with
    ⟨hnot, -⟩ | ⟨-, hfree, hsame⟩ | ⟨-, htaken, hconflict⟩
  · exact Bool.noConfusion (hnot.symm.trans hasks)
  · rw [hsame, hfree]
    rfl
  · rw [hconflict, htaken]
    rfl

end Zemo.Organizer

/-! ## Places that were asked for

What the collision pass remembers are the places of the operations it has been through. A file whose
place was asked for before therefore shares it with an earlier operation of the result. -/

namespace Zemo.Organizer

variable {engine : EngineContext} {policy : VirtualPathPolicy}

/-- A place that is remembered after a step was remembered before, or is the operation's own. -/
theorem resolveCollision_seen (seen : List String) (draft : DraftOperation) :
    ∀ key ∈ (engine.resolveCollision policy seen draft).1,
      key ∈ seen
        ∨ key = engine.placeKey (engine.resolveCollision policy seen draft).2.operation := by
  unfold EngineContext.resolveCollision
  by_cases hleft : isLeftAlone draft.operation = true
  · rw [if_pos hleft]
    exact fun _ hkey => .inl hkey
  rw [if_neg hleft]
  simp only
  by_cases hfirst : seen.count (engine.placeKey draft.operation) + 1 = 1
  · rw [if_pos hfirst]
    intro key hkey
    rcases List.mem_cons.1 hkey with rfl | hkey
    · exact .inr rfl
    · exact .inl hkey
  rw [if_neg hfirst]
  -- from here on the place was asked for before
  have hasked : engine.placeKey draft.operation ∈ seen := List.count_pos_iff.1 (by omega)
  have hagain : ∀ key ∈ engine.placeKey draft.operation :: seen, key ∈ seen := by
    intro key hkey
    rcases List.mem_cons.1 hkey with rfl | hkey
    · exact hasked
    · exact hkey
  by_cases huser : draft.operation.userOverride = true
  · rw [if_pos huser]
    exact fun key hkey => .inl (hagain key hkey)
  rw [if_neg huser]
  split
  · exact fun key hkey => .inl (hagain key hkey)
  · intro key hkey
    rcases List.mem_cons.1 hkey with rfl | hkey
    · exact .inr rfl
    · exact .inl (hagain key hkey)

/-- The places remembered at a draft are those of the results before it. -/
theorem askedBefore_seen (drafts : List DraftOperation) (seen : List String) :
    ∀ (i : Nat) (asked : List String × DraftOperation),
      (engine.askedBefore policy seen drafts)[i]? = some asked →
        ∀ key ∈ asked.1, key ∈ seen ∨ ∃ (j : Nat) (result : DraftOperation), j < i
          ∧ (engine.resolveCollisionsFrom policy seen drafts)[j]? = some result
          ∧ engine.placeKey result.operation = key := by
  induction drafts generalizing seen with
  | nil => exact fun _ _ hasked => nomatch hasked
  | cons draft rest ih =>
      intro i asked hasked key hkey
      rw [EngineContext.askedBefore] at hasked
      cases i with
      | zero =>
          obtain rfl : (seen, draft) = asked := Option.some.inj hasked
          exact .inl hkey
      | succ i =>
          rw [List.getElem?_cons_succ] at hasked
          rcases ih _ i asked hasked key hkey with hseen | ⟨j, result, hj, hresult, hsame⟩
          · rcases resolveCollision_seen seen draft key hseen with hseen | hown
            · exact .inl hseen
            · exact .inr ⟨0, (engine.resolveCollision policy seen draft).2, Nat.succ_pos i, rfl,
                hown.symm⟩
          · refine .inr ⟨j + 1, result, Nat.succ_lt_succ hj, ?_, hsame⟩
            rw [EngineContext.resolveCollisionsFrom, List.getElem?_cons_succ]
            exact hresult

variable {run : BuildRun} {request : OrganizationBuildRequest}

/-- The history at a position of another operation that ends up at the same place. -/
def EngineContext.SharesPlace (engine : EngineContext) (run : BuildRun)
    (request : OrganizationBuildRequest) (position : Nat) (history : History) : Prop :=
  ∃ (other : Nat) (neighbour : History), other ≠ position
    ∧ (engine.histories run request)[other]? = some neighbour
    ∧ engine.placeKey (neighbour.final engine request.policy)
      = engine.placeKey (history.final engine request.policy)

/-- **A place that was asked for before is shared** with an earlier operation. -/
theorem exists_earlier_of_seen {position : Nat} {history : History}
    (hhistory : (engine.histories run request)[position]? = some history) {key : String}
    (hkey : key ∈ history.seen) :
    ∃ (other : Nat) (neighbour : History), other < position
      ∧ (engine.histories run request)[other]? = some neighbour
      ∧ engine.placeKey (neighbour.final engine request.policy) = key := by
  obtain ⟨start, asked, -, hasked, rfl⟩ := List.getElem?_zipWith_eq_some.1 hhistory
  rcases askedBefore_seen _ _ _ _ hasked key hkey with hnone | ⟨other, result, hother, hresult, rfl⟩
  · exact absurd hnone List.not_mem_nil
  have hmap : ((engine.histories run request).map (·.final engine request.policy))[other]?
      = some result.operation := by
    rw [← fullDrafts_eq_histories, List.getElem?_map]
    exact congrArg (Option.map _) hresult
  rw [List.getElem?_map] at hmap
  obtain ⟨neighbour, hneighbour, hfinal⟩ := Option.map_eq_some_iff.1 hmap
  exact ⟨other, neighbour, hother, hneighbour, by rw [hfinal]⟩

end Zemo.Organizer
