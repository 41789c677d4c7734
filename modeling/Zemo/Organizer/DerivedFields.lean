import Zemo.Organizer.Bundles

set_option autoImplicit false

/-! # When the fields follow

A pass that changes the place of a file leaves some of the fields as they were compiled. Whether the
fields of an operation agree with its place in the end is told from the passes its draft goes
through. -/

namespace Zemo.Organizer

open VirtualPathPolicy

variable {engine : EngineContext} {run : BuildRun} {request : OrganizationBuildRequest}

/-! ## Lengths -/

theorem pathLengthUtf16_eq_of_prefix {short long : List String} (name : String)
    (h : short <+: long) :
    pathLengthUtf16 long name = pathLengthUtf16 short name ↔ short = long := by
  obtain ⟨rest, rfl⟩ := h
  unfold pathLengthUtf16
  rw [List.map_append, List.sum_append, List.length_append]
  constructor
  · intro hsame
    have hrest : rest.length = 0 := by omega
    rw [List.length_eq_zero_iff.1 hrest, List.append_nil]
  · intro hsame
    have hrest : rest = [] := List.append_right_eq_self.1 hsame.symm
    simp [hrest]

theorem length_eq_of_pathsEqual {left right : List String} (h : pathsEqual left right = true) :
    left.length = right.length := by
  unfold pathsEqual at h
  exact of_decide_eq_true (Bool.and_eq_true .. ▸ h).1

/-- A folder is neither the folder of a file nor above it when the one below is that folder. -/
theorem pathsEqual_shortened {own short long : List String} (h : short <+: long)
    (hne : short ≠ long) (hlong : pathsEqual own long = true) : pathsEqual own short = false := by
  refine Bool.eq_false_iff.2 fun hshort => hne (h.eq_of_length ?_)
  rw [← length_eq_of_pathsEqual hshort, length_eq_of_pathsEqual hlong]

/-! ## The condition -/

/-- The operations the fields are asked of. -/
structure History.Derives (engine : EngineContext) (request : OrganizationBuildRequest)
    (history : History) : Prop where
  machine : (history.final engine request.policy).userOverride = false
  single : history.input.duplicateNoAction = false
  moved : request.consumerMode = true →
    (engine.decisionFor request history.input).leaveInPlace = false
  settled : isSettled (history.final engine request.policy) = true

/-- The group policy has left folders out of the destination that was compiled. -/
def History.leftOut (request : OrganizationBuildRequest) (history : History) : Prop :=
  request.consumerMode = false
    ∧ history.placed.operation.proposedDestination ≠ history.compiled.operation.proposedDestination

/-- **The passes keep the fields of a draft in step with its place.** -/
structure History.FieldsFollow (engine : EngineContext) (request : OrganizationBuildRequest)
    (history : History) : Prop where
  /-- Where folders were left out, the file gets a suffix, for which the path is measured again, and
  is moved there from another folder. -/
  grouped : history.leftOut request → engine.asksForName history.seen history.placed = true
    ∧ history.compiled.operation.operationKind = .moveProposal
    ∧ staysInFolder history.placed.operation = false
  /-- A file to be reviewed is not in the folder for it already. -/
  reviewed : history.compiled.operation.operationKind = .toReview →
    staysInFolder history.compiled.operation = false
  /-- A file that is kept together with its folder is not at its place already. -/
  bundled : ∀ found, request.consumerMode = true →
    engine.bundleOf request history.compiled.operation.fileId = some found →
      pathsEqual (ownFolder history.compiled.operation) found.2.destination = false
  /-- A suffix does not give a file of this folder its own name back. -/
  renamed : engine.asksForName history.seen history.placed = true →
    staysInFolder history.placed.operation = true →
      eqIgnoreAsciiCase history.placed.operation.sourceName
        (engine.searchedName request.policy history.seen history.placed) = false

/-! ## Compiled drafts -/

/-- The fields of a draft as they are compiled. -/
structure CompiledFields (draft : DraftOperation) : Prop where
  length : draft.operation.proposedPathLength
    = pathLengthUtf16 draft.operation.proposedDestination draft.operation.proposedName
  depth : DepthFits draft
  kind : draft.operation.operationKind = .toReview
        ∧ draft.operation.proposedDestination = ["TO_REVIEW"]
      ∨ draft.operation.operationKind = kindAt draft.operation

theorem kindAt_ne_review (operation : OrganizationProposalOperation) :
    kindAt operation ≠ .toReview := by
  unfold kindAt
  split
  · split <;> exact ProposalOperationKind.noConfusion
  · exact ProposalOperationKind.noConfusion

theorem placedKind_eq_kindAt {input : OrganizationSourceInput}
    {operation : OrganizationProposalOperation}
    (hpath : operation.source.relativePath = input.sourceRelativePath)
    (hname : operation.sourceName = input.sourceName) :
    placedKind input operation.proposedDestination operation.proposedName = kindAt operation := by
  unfold placedKind kindAt staysInFolder keepsName ownFolder OrganizationSourceInput.sourceParent
  rw [hpath, hname]

theorem compileInput_compiledFields {input : OrganizationSourceInput} {position : Nat}
    (huser : request.overrideOf input.fileId = none) (hsingle : input.duplicateNoAction = false)
    (hmoved : request.consumerMode = true → (engine.decisionFor request input).leaveInPlace = false) :
    CompiledFields (engine.compileInput run request input position) := by
  obtain ⟨hpath, hname, -, -, -, hlength, hdepth⟩ :=
    compileInput_fields engine run request input position
  refine ⟨hlength, hdepth, ?_⟩
  rw [← placedKind_eq_kindAt hpath hname]
  by_cases hmode : request.consumerMode = true
  · exact .inr (compileInput_kind_consumer hmode input position huser hsingle (hmoved hmode))
  · have hkind := compileInput_kind_professional engine run
      (Bool.eq_false_iff.2 hmode) input position huser hsingle
    simp only at hkind
    rw [hkind]
    split
    · rename_i hreview
      exact .inl ⟨rfl, hreview⟩
    · exact .inr rfl

/-! ## Drafts that keep their place -/

section Apart

variable {draft result : DraftOperation} (hcompiled : CompiledFields draft)
  (h : Apart draft result)

include h in
theorem Apart.staysInFolder_eq :
    staysInFolder result.operation = staysInFolder draft.operation := by
  unfold staysInFolder ownFolder
  rw [h.file.source, h.file.sourceName, h.destination]

include h in
theorem Apart.kindAt_eq : kindAt result.operation = kindAt draft.operation := by
  unfold kindAt keepsName
  rw [h.staysInFolder_eq, h.file.sourceName, h.name]

include hcompiled h in
/-- The fields of a draft at its compiled place agree, unless it is reviewed in its own folder. -/
theorem Apart.fieldsAgree_iff :
    FieldsAgree result.operation
      ↔ (draft.operation.operationKind = .toReview → staysInFolder draft.operation = false) := by
  have hlength : result.operation.proposedPathLength
      = pathLengthUtf16 result.operation.proposedDestination result.operation.proposedName := by
    rw [h.length, h.destination, h.name, hcompiled.length]
  have hfields : FieldsAgree result.operation ↔ KindFits result.operation :=
    ⟨fun hagree => hagree.kind, fun hkind => ⟨hkind, hlength, h.depth hcompiled.depth⟩⟩
  rw [hfields]
  rcases hcompiled.kind with ⟨hkind, hreview⟩ | hkind
  · rw [kindFits_review (h.kind.trans hkind), h.destination, h.staysInFolder_eq]
    exact ⟨fun hfits _ => hfits.2, fun hstays => ⟨hreview, hstays hkind⟩⟩
  · refine iff_of_true (kindFits_of_kindAt ?_) fun hreview => ?_
    · rw [h.kind, hkind, h.kindAt_eq]
    · exact absurd (hkind.symm.trans hreview) (kindAt_ne_review _)

include hcompiled h in
/-- With a suffix they agree when, besides, a file that is renamed does not get its name back. -/
theorem Apart.suffixed_fieldsAgree_iff (name : String)
    (hmoved : isLeftAlone result.operation = false) :
    FieldsAgree (result.suffixed name).operation
      ↔ (draft.operation.operationKind = .toReview → staysInFolder draft.operation = false)
        ∧ (staysInFolder result.operation = true →
          eqIgnoreAsciiCase result.operation.sourceName name = false) := by
  have hfields : FieldsAgree (result.suffixed name).operation
      ↔ KindFits (result.suffixed name).operation :=
    ⟨fun hagree => hagree.kind, fun hkind => ⟨hkind, rfl, h.depth hcompiled.depth⟩⟩
  have hstays : staysInFolder (result.suffixed name).operation = staysInFolder result.operation :=
    rfl
  rw [hfields]
  rcases hcompiled.kind with ⟨hkind, hreview⟩ | hkind
  · have hresult : (result.suffixed name).operation.operationKind = .toReview := h.kind.trans hkind
    rw [kindFits_review hresult, hstays, h.staysInFolder_eq]
    constructor
    · rintro ⟨-, hother⟩
      exact ⟨fun _ => hother, fun hown => absurd (hother.symm.trans hown) Bool.noConfusion⟩
    · rintro ⟨hother, -⟩
      exact ⟨h.destination.trans hreview, hother hkind⟩
  · have hresult : (result.suffixed name).operation.operationKind = kindAt result.operation := by
      rw [h.kindAt_eq, ← hkind]
      exact h.kind
    have hnot : draft.operation.operationKind ≠ .toReview := fun hreview =>
      absurd (hkind.symm.trans hreview) (kindAt_ne_review _)
    rw [kindFits_iff (by rw [hresult]; exact kindAt_ne_review _), hresult]
    have hkept : kindAt result.operation ≠ .keepInPlace := by
      intro hkeep
      rw [h.kindAt_eq, ← hkind, ← h.kind] at hkeep
      simp [isLeftAlone, hkeep] at hmoved
    unfold kindAt at hkept ⊢
    rw [hstays]
    have hkeeps : keepsName (result.suffixed name).operation
        = eqIgnoreAsciiCase result.operation.sourceName name := rfl
    rw [hkeeps]
    cases hown : staysInFolder result.operation with
    | false => simp [hnot]
    | true =>
        rw [hown, if_pos rfl] at hkept
        cases hname : keepsName result.operation with
        | true => simp [hname] at hkept
        | false =>
            cases eqIgnoreAsciiCase result.operation.sourceName name <;> simp [hnot]

end Apart

/-! ## Drafts without some of their folders -/

section LeftOut

variable {draft result : DraftOperation} (hcompiled : CompiledFields draft)
  (h : Shortened draft result) (hdepth : DepthFits result)
  (hne : result.operation.proposedDestination ≠ draft.operation.proposedDestination)

include hcompiled h hne in
/-- The length stays that of the longer path. -/
theorem Shortened.not_fieldsAgree : ¬ FieldsAgree result.operation := by
  intro hagree
  have hlength := hagree.length
  rw [h.length, hcompiled.length, h.name, pathLengthUtf16_eq_of_prefix _ h.destination] at hlength
  exact hne hlength

include hcompiled h hdepth hne in
/-- With a suffix the path is measured again; the kind agrees only when the file moves. -/
theorem Shortened.suffixed_fieldsAgree_iff (name : String) :
    FieldsAgree (result.suffixed name).operation
      ↔ draft.operation.operationKind = .moveProposal ∧ staysInFolder result.operation = false := by
  have hfields : FieldsAgree (result.suffixed name).operation
      ↔ KindFits (result.suffixed name).operation :=
    ⟨fun hagree => hagree.kind, fun hkind => ⟨hkind, rfl, hdepth⟩⟩
  have hsame : (result.suffixed name).operation.operationKind = draft.operation.operationKind :=
    h.kind
  have hstays : staysInFolder (result.suffixed name).operation = staysInFolder result.operation :=
    rfl
  rw [hfields]
  rcases hcompiled.kind with ⟨hkind, hreview⟩ | hkind
  · -- the review folder itself was left out
    rw [kindFits_review (hsame.trans hkind)]
    refine iff_of_false (fun hfits => hne (hfits.1.trans hreview.symm)) fun hmove => ?_
    exact ProposalOperationKind.noConfusion (hkind.symm.trans hmove.1)
  · rw [kindFits_iff (by rw [hsame, hkind]; exact kindAt_ne_review _), hsame]
    cases hown : staysInFolder draft.operation with
    | false =>
        have hmove : draft.operation.operationKind = .moveProposal := by
          rw [hkind, kindAt, hown, if_neg Bool.noConfusion]
        rw [hmove, kindAt, hstays]
        cases staysInFolder result.operation with
        | false => simp
        | true => cases keepsName (result.suffixed name).operation <;> simp
    | true =>
        -- a file in the longer folder is not in the shorter one
        have hother : staysInFolder result.operation = false := by
          unfold staysInFolder ownFolder at hown ⊢
          rw [h.source, h.sourceName]
          exact pathsEqual_shortened h.destination hne hown
        have hnot : draft.operation.operationKind ≠ .moveProposal := by
          rw [hkind, kindAt, hown, if_pos rfl]
          split <;> exact ProposalOperationKind.noConfusion
        refine iff_of_false (fun hfits => hnot ?_) fun hmove => hnot hmove.1
        rw [hfits, kindAt, hstays, hother, if_neg Bool.noConfusion]

end LeftOut

/-! ## Drafts that are kept with their folder -/

theorem Together.fieldsAgree_iff {input : OrganizationSourceInput} {place : BundlePlace}
    {draft result : DraftOperation} (h : Together input place draft result) :
    FieldsAgree result.operation
      ↔ pathsEqual (ownFolder draft.operation) place.destination = false := by
  have hlength : result.operation.proposedPathLength
      = pathLengthUtf16 result.operation.proposedDestination result.operation.proposedName := by
    rw [h.length, h.destination, h.name]
  have hfields : FieldsAgree result.operation ↔ KindFits result.operation :=
    ⟨fun hagree => hagree.kind, fun hkind => ⟨hkind, hlength, h.depth⟩⟩
  have hstays : staysInFolder result.operation
      = pathsEqual (ownFolder draft.operation) place.destination := by
    unfold staysInFolder ownFolder
    rw [h.file.source, h.file.sourceName, h.destination]
  rw [hfields, kindFits_iff (by rw [h.kind]; exact ProposalOperationKind.noConfusion), h.kind,
    kindAt, hstays]
  cases pathsEqual (ownFolder draft.operation) place.destination with
  | false => simp
  | true => cases keepsName result.operation <;> simp

theorem Together.suffixed_fieldsAgree_iff {input : OrganizationSourceInput} {place : BundlePlace}
    {draft result : DraftOperation} (h : Together input place draft result) (name : String) :
    FieldsAgree (result.suffixed name).operation
      ↔ pathsEqual (ownFolder draft.operation) place.destination = false := by
  have hfields : FieldsAgree (result.suffixed name).operation
      ↔ KindFits (result.suffixed name).operation :=
    ⟨fun hagree => hagree.kind, fun hkind => ⟨hkind, rfl, h.depth⟩⟩
  have hkind : (result.suffixed name).operation.operationKind = .moveProposal := h.kind
  have hstays : staysInFolder (result.suffixed name).operation
      = pathsEqual (ownFolder draft.operation) place.destination := by
    unfold staysInFolder ownFolder
    rw [← h.destination, ← h.file.source, ← h.file.sourceName]
    rfl
  rw [hfields, kindFits_iff (by rw [hkind]; exact ProposalOperationKind.noConfusion), hkind,
    kindAt, hstays]
  cases pathsEqual (ownFolder draft.operation) place.destination with
  | false => simp
  | true => cases keepsName (result.suffixed name).operation <;> simp

/-! ## Histories -/

/-- What is known of a history whose fields are asked of. -/
theorem History.Derives.facts {history : History} (h : history.Derives engine request)
    (hmem : history ∈ engine.histories run request) :
    CompiledFields history.compiled
      ∧ history.compiled.operation.userOverride = false
      ∧ history.compiled.operation.stale = false
      ∧ engine.Placed request history.compiled history.placed
      ∧ (request.consumerMode = true → true ∉ history.compiled.optionalTail
        ∧ history.compiled.operation.operationKind ≠ .toReview) := by
  obtain ⟨-, ⟨position, hcompiled⟩, hplaced⟩ := mem_histories hmem
  have hmachine : history.compiled.operation.userOverride = false := by
    rw [← hplaced.sameFile.override]
    have hfinal : SameFile history.placed
        (engine.resolveCollision request.policy history.seen history.placed).2 :=
      resolveCollision_sameFile _ _ _
    rw [← hfinal.override]
    exact h.machine
  obtain ⟨-, -, -, huser, hstale, -, -⟩ :=
    compileInput_fields engine run request history.input position
  rw [← hcompiled] at huser hstale
  have hnone : request.overrideOf history.input.fileId = none := by
    rw [← Option.not_isSome_iff_eq_none, ← huser, hmachine]
    exact Bool.noConfusion
  refine ⟨hcompiled ▸ compileInput_compiledFields hnone h.single h.moved, hmachine, hstale, hplaced,
    fun hmode => ⟨hcompiled ▸ compileInput_required hmode history.input position, ?_⟩⟩
  rw [hcompiled, compileInput_kind_consumer hmode history.input position hnone h.single
    (h.moved hmode)]
  unfold placedKind
  split
  · split <;> exact ProposalOperationKind.noConfusion
  · exact ProposalOperationKind.noConfusion

/-- A settled operation is what was placed, or what was placed under another name. -/
theorem History.final_cases {policy : VirtualPathPolicy} {history : History}
    (hsettled : isSettled (history.final engine policy) = true) :
    (engine.asksForName history.seen history.placed = false
        ∧ history.final engine policy = history.placed.operation)
      ∨ (engine.asksForName history.seen history.placed = true
        ∧ isLeftAlone history.placed.operation = false
        ∧ history.final engine policy = (history.placed.suffixed
          (engine.searchedName policy history.seen history.placed)).operation) := by
  have hconflict : (history.final engine policy).conflictState ≠ .destinationCollision := by
    intro hcollision
    simp [isSettled, hcollision] at hsettled
  unfold History.final at hconflict ⊢
  rcases resolveCollision_eq engine policy history.seen history.placed with
    ⟨hasks, hsame | hcollision⟩ | ⟨hasks, -, hsame⟩ | ⟨-, -, hcollision⟩
  · exact .inl ⟨hasks, by rw [hsame]⟩
  · exact absurd hcollision hconflict
  · refine .inr ⟨hasks, ?_, by rw [hsame]⟩
    unfold EngineContext.asksForName at hasks
    simp only [Bool.and_eq_true, Bool.not_eq_true'] at hasks
    exact hasks.1.1
  · exact absurd hcollision hconflict

theorem History.fieldsAgree_apart {policy : VirtualPathPolicy} {history : History}
    (hsettled : isSettled (history.final engine policy) = true)
    (hcompiled : CompiledFields history.compiled) (hway : Apart history.compiled history.placed) :
    FieldsAgree (history.final engine policy)
      ↔ (history.compiled.operation.operationKind = .toReview →
          staysInFolder history.compiled.operation = false)
        ∧ (engine.asksForName history.seen history.placed = true →
          staysInFolder history.placed.operation = true →
            eqIgnoreAsciiCase history.placed.operation.sourceName
              (engine.searchedName policy history.seen history.placed) = false) := by
  rcases History.final_cases hsettled with ⟨hasks, hsame⟩ | ⟨hasks, hmoved, hsame⟩
  · rw [hsame, hway.fieldsAgree_iff hcompiled]
    exact ⟨fun hreview => ⟨hreview, fun hask => Bool.noConfusion (hasks.symm.trans hask)⟩,
      fun hboth => hboth.1⟩
  · rw [hsame, hway.suffixed_fieldsAgree_iff hcompiled _ hmoved]
    exact and_congr_right fun _ => ⟨fun hname _ => hname, fun hname => hname hasks⟩

theorem History.fieldsAgree_together {policy : VirtualPathPolicy} {history : History}
    {input : OrganizationSourceInput} {place : BundlePlace}
    (hsettled : isSettled (history.final engine policy) = true)
    (hway : Together input place history.compiled history.placed) :
    FieldsAgree (history.final engine policy)
      ↔ pathsEqual (ownFolder history.compiled.operation) place.destination = false := by
  rcases History.final_cases hsettled with ⟨-, hsame⟩ | ⟨-, -, hsame⟩
  · rw [hsame, hway.fieldsAgree_iff]
  · rw [hsame, hway.suffixed_fieldsAgree_iff]

theorem History.fieldsAgree_shortened {policy : VirtualPathPolicy} {history : History}
    (hsettled : isSettled (history.final engine policy) = true)
    (hcompiled : CompiledFields history.compiled)
    (hway : Shortened history.compiled history.placed) (hdepth : DepthFits history.placed)
    (hne : history.placed.operation.proposedDestination
      ≠ history.compiled.operation.proposedDestination) :
    FieldsAgree (history.final engine policy)
      ↔ engine.asksForName history.seen history.placed = true
        ∧ history.compiled.operation.operationKind = .moveProposal
        ∧ staysInFolder history.placed.operation = false := by
  rcases History.final_cases hsettled with ⟨hasks, hsame⟩ | ⟨hasks, -, hsame⟩
  · rw [hsame]
    exact iff_of_false (hway.not_fieldsAgree hcompiled hne) fun hall =>
      Bool.noConfusion (hasks.symm.trans hall.1)
  · rw [hsame, hway.suffixed_fieldsAgree_iff hcompiled hdepth hne]
    exact (and_iff_right hasks).symm

theorem History.Derives.fieldsAgree_consumer {history : History}
    (h : history.Derives engine request) (hmem : history ∈ engine.histories run request)
    (hmode : request.consumerMode = true) :
    FieldsAgree (history.final engine request.policy) ↔ history.FieldsFollow engine request := by
  obtain ⟨hcompiled, hmachine, hstale, hplaced, hconsumer⟩ := h.facts hmem
  obtain ⟨hrequired, hkind⟩ := hconsumer hmode
  have hnever : ¬ history.leftOut request := fun hleft =>
    Bool.noConfusion (hleft.1.symm.trans hmode)
  have hway := hplaced.consumer hmode hrequired hmachine hstale
  cases hfound : engine.bundleOf request history.compiled.operation.fileId with
  | none =>
      rw [hfound] at hway
      rw [History.fieldsAgree_apart h.settled hcompiled hway]
      constructor
      · rintro ⟨hreviewed, hrenamed⟩
        exact ⟨fun hleft => absurd hleft hnever, hreviewed,
          fun found _ hsome => (nomatch hfound.symm.trans hsome), hrenamed⟩
      · exact fun hall => ⟨hall.reviewed, hall.renamed⟩
  | some found =>
      rw [hfound] at hway
      obtain ⟨input, place⟩ := found
      have hway : Together input place history.compiled history.placed := hway
      rw [History.fieldsAgree_together h.settled hway]
      refine ⟨fun hother => ⟨fun hleft => absurd hleft hnever,
        fun hreview => absurd hreview hkind, fun found _ hsome => ?_, fun _ hown => ?_⟩,
        fun hall => hall.bundled _ hmode hfound⟩
      · obtain rfl : (input, place) = found := Option.some.inj (hfound.symm.trans hsome)
        exact hother
      · unfold staysInFolder ownFolder at hown
        rw [hway.file.source, hway.file.sourceName, hway.destination] at hown
        exact Bool.noConfusion (hother.symm.trans hown)

theorem History.Derives.fieldsAgree_professional {history : History}
    (h : history.Derives engine request) (hmem : history ∈ engine.histories run request)
    (hmode : request.consumerMode = false) :
    FieldsAgree (history.final engine request.policy) ↔ history.FieldsFollow engine request := by
  obtain ⟨hcompiled, -, -, hplaced, -⟩ := h.facts hmem
  obtain ⟨hshort, hdepth⟩ := hplaced.professional hmode
  have hbundled : ∀ found, request.consumerMode = true →
      engine.bundleOf request history.compiled.operation.fileId = some found →
        pathsEqual (ownFolder history.compiled.operation) found.2.destination = false :=
    fun _ htrue => Bool.noConfusion (hmode.symm.trans htrue)
  by_cases hfolders : history.placed.operation.proposedDestination
      = history.compiled.operation.proposedDestination
  · have hway : Apart history.compiled history.placed :=
      ⟨hshort.sameFile, hfolders, hshort.name, hshort.kind, hshort.length, hdepth,
        .inl hshort.conflict⟩
    rw [History.fieldsAgree_apart h.settled hcompiled hway]
    exact ⟨fun hboth => ⟨fun hleft => absurd hfolders hleft.2, hboth.1, hbundled, hboth.2⟩,
      fun hall => ⟨hall.reviewed, hall.renamed⟩⟩
  · rw [History.fieldsAgree_shortened h.settled hcompiled hshort (hdepth hcompiled.depth) hfolders]
    constructor
    · rintro ⟨hasks, hmove, hother⟩
      exact ⟨fun _ => ⟨hasks, hmove, hother⟩,
        fun hreview => ProposalOperationKind.noConfusion (hmove.symm.trans hreview), hbundled,
        fun _ hown => Bool.noConfusion (hother.symm.trans hown)⟩
    · exact fun hall => hall.grouped ⟨hmode, hfolders⟩

theorem History.Derives.fieldsAgree_iff {history : History} (h : history.Derives engine request)
    (hmem : history ∈ engine.histories run request) :
    FieldsAgree (history.final engine request.policy) ↔ history.FieldsFollow engine request := by
  cases hmode : request.consumerMode with
  | true => exact h.fieldsAgree_consumer hmem hmode
  | false => exact h.fieldsAgree_professional hmem hmode

/-! ## Builds -/

/-- **Which derived fields agree**: each operation of a full build is the end of a history, and its
kind, the length of its path and its depth fit its place exactly when the passes of that history
keep them in step. -/
theorem derived_fields_agree_iff (engine : EngineContext) (run : BuildRun)
    (request : OrganizationBuildRequest)
    (h : (engine.buildFull run request).status ≠ .cancelled) :
    (engine.buildFull run request).operations
        = (engine.histories run request).map (·.final engine request.policy)
      ∧ ∀ history ∈ engine.histories run request, history.Derives engine request →
        (FieldsAgree (history.final engine request.policy)
          ↔ history.FieldsFollow engine request) :=
  ⟨buildFull_operations h, fun _ hmem hderives => hderives.fieldsAgree_iff hmem⟩

/-- A signal the user has confirmed. -/
def confirmed (value : String) : Option ProposalSignal :=
  some { value, confidence := 1, status := "confirmed", userConfirmed := true }

/-- An invoice of a business. -/
def invoiceInput (fileId : FileId) (path name : String) : OrganizationSourceInput :=
  { sampleInput fileId path name with
    semanticStatus := some "success"
    context := confirmed "business"
    documentType := confirmed "invoice" }

/-- A single invoice, for which no folder of its own is made. -/
private def loneInvoice : OrganizationBuildRequest :=
  sampleRequest false [invoiceInput 1 "inbox/a.pdf" "a.pdf"] []

theorem derived_fields_agree_iff_loneInvoice :
    (sampleEngine.buildFull sampleBuildRun loneInvoice).operations
        = (sampleEngine.histories sampleBuildRun loneInvoice).map
          (·.final sampleEngine loneInvoice.policy)
      ∧ ∀ history ∈ sampleEngine.histories sampleBuildRun loneInvoice,
        history.Derives sampleEngine loneInvoice →
          (FieldsAgree (history.final sampleEngine loneInvoice.policy)
            ↔ history.FieldsFollow sampleEngine loneInvoice) :=
  derived_fields_agree_iff sampleEngine sampleBuildRun loneInvoice (by decide +kernel)

/-- The length of the path of a single invoice is that of a folder it does not go to. -/
theorem lone_invoice_length_stale :
    (sampleEngine.buildFull sampleBuildRun loneInvoice).status = .readyForReview
      ∧ ∃ history ∈ sampleEngine.histories sampleBuildRun loneInvoice,
        history.Derives sampleEngine loneInvoice
          ∧ (history.final sampleEngine loneInvoice.policy).proposedDestination
            = ["Business", "Accounting"]
          ∧ ¬ FieldsAgree (history.final sampleEngine loneInvoice.policy) := by
  have hseen : (sampleEngine.histories sampleBuildRun loneInvoice).map (fun history =>
      (!(history.final sampleEngine loneInvoice.policy).userOverride
          && !history.input.duplicateNoAction
          && isSettled (history.final sampleEngine loneInvoice.policy),
        (history.final sampleEngine loneInvoice.policy).proposedDestination,
        (history.final sampleEngine loneInvoice.policy).proposedPathLength,
        pathLengthUtf16 (history.final sampleEngine loneInvoice.policy).proposedDestination
          (history.final sampleEngine loneInvoice.policy).proposedName))
      = [(true, ["Business", "Accounting"], 34, 25)] := by
    decide +kernel
  obtain ⟨history, _, hhistories, hhistory, hnil⟩ := List.map_eq_cons_iff.1 hseen
  obtain rfl := List.map_eq_nil_iff.1 hnil
  simp only [Prod.mk.injEq, Bool.and_eq_true, Bool.not_eq_true'] at hhistory
  obtain ⟨⟨⟨hmachine, hsingle⟩, hsettled⟩, hfolders, hlength, hmeasured⟩ := hhistory
  refine ⟨by decide +kernel, history, hhistories ▸ List.mem_singleton_self _,
    ⟨hmachine, hsingle, fun hmode => ?_, hsettled⟩, hfolders, fun hagree => ?_⟩
  · exact absurd hmode (by decide)
  · exact absurd (hlength.symm.trans (hagree.length.trans hmeasured)) (by decide)

end Zemo.Organizer
