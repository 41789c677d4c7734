import Mathlib.Algebra.Order.BigOperators.Group.List
import Mathlib.Algebra.Order.Group.Nat
import Zemo.Organizer.Depths

set_option autoImplicit false

/-! # What the group policy leaves out

The rounds of the group policy come to an end, the order of the drafts does not matter for them, and
what is left out are folders that only sort: years and kinds. -/

namespace Zemo.Organizer

variable {engine : EngineContext} {drafts others : List DraftOperation}
  {draft result : DraftOperation} {minimumGroupSize : Nat}

/-! ## The rounds -/

/-- How many folders may still be left out, at most. -/
def flagCount (drafts : List DraftOperation) : Nat :=
  (drafts.map (·.optionalTail.length)).sum

theorem groupStep_length_le :
    (if engine.isSmall drafts minimumGroupSize draft then draft.popped
      else draft).optionalTail.length ≤ draft.optionalTail.length := by
  split
  · simp [DraftOperation.popped]
  · exact le_rfl

/-- A round in which a folder is too small leaves one out. -/
theorem flagCount_groupRound_lt (h : drafts.any (engine.isSmall drafts minimumGroupSize) = true) :
    flagCount (engine.groupRound minimumGroupSize drafts) < flagCount drafts := by
  obtain ⟨draft, hdraft, hsmall⟩ := List.any_eq_true.1 h
  unfold flagCount EngineContext.groupRound
  rw [List.map_map]
  refine List.sum_lt_sum _ _ (fun other _ => groupStep_length_le) ⟨draft, hdraft, ?_⟩
  have hflag := optionalTail_of_isSmall hsmall
  have hlength : draft.optionalTail.length ≠ 0 := by
    intro hzero
    rw [List.eq_nil_of_length_eq_zero hzero] at hflag
    exact nomatch hflag
  simp only [Function.comp_apply, if_pos hsmall, DraftOperation.popped, List.length_dropLast]
  omega

/-- **The rounds end**: they go on while a folder is too small, and at last none is. -/
theorem groupLoop_eq_iterate {fuel : Nat} (hfuel : flagCount drafts ≤ fuel) :
    ∃ rounds, engine.groupLoop minimumGroupSize fuel drafts
        = (engine.groupRound minimumGroupSize)^[rounds] drafts
      ∧ (∀ earlier < rounds, ((engine.groupRound minimumGroupSize)^[earlier] drafts).any
          (engine.isSmall ((engine.groupRound minimumGroupSize)^[earlier] drafts)
            minimumGroupSize) = true)
      ∧ (engine.groupLoop minimumGroupSize fuel drafts).any
          (engine.isSmall (engine.groupLoop minimumGroupSize fuel drafts) minimumGroupSize)
        = false := by
  induction fuel generalizing drafts with
  | zero =>
    refine ⟨0, rfl, nofun, Bool.eq_false_iff.2 fun h => ?_⟩
    have := flagCount_groupRound_lt h
    rw [EngineContext.groupLoop] at this
    omega
  | succ fuel ih =>
    rw [EngineContext.groupLoop]
    by_cases h : drafts.any (engine.isSmall drafts minimumGroupSize) = true
    · rw [if_pos h]
      obtain ⟨rounds, heq, hearlier, hend⟩ :=
        @ih (engine.groupRound minimumGroupSize drafts) (by have := flagCount_groupRound_lt h; omega)
      refine ⟨rounds + 1, heq.trans (Function.iterate_succ_apply _ _ _).symm, fun earlier hlt => ?_,
        hend⟩
      cases earlier with
      | zero => exact h
      | succ earlier =>
        simp only [Function.iterate_succ_apply]
        exact hearlier earlier (by omega)
    · rw [if_neg h]
      exact ⟨0, rfl, nofun, Bool.eq_false_iff.2 h⟩

/-! ## The order of the drafts -/

theorem groupCount_perm (h : others.Perm drafts) (key : String) :
    engine.groupCount others key = engine.groupCount drafts key :=
  (h.flatMap_right _).count_eq key

theorem isSmall_perm (h : others.Perm drafts) :
    engine.isSmall others minimumGroupSize = engine.isSmall drafts minimumGroupSize := by
  funext draft
  rw [EngineContext.isSmall, EngineContext.isSmall, groupCount_perm h]

/-- In whatever order the drafts come, the rounds make the same of each. -/
theorem groupLoop_perm (fuel : Nat) (drafts : List DraftOperation) :
    ∃ f : DraftOperation → DraftOperation, ∀ others : List DraftOperation, others.Perm drafts →
      engine.groupLoop minimumGroupSize fuel others = others.map f := by
  induction fuel generalizing drafts with
  | zero => exact ⟨id, fun others _ => (List.map_id others).symm⟩
  | succ fuel ih =>
    obtain ⟨f, hf⟩ := ih (engine.groupRound minimumGroupSize drafts)
    refine ⟨fun draft => if drafts.any (engine.isSmall drafts minimumGroupSize) then
      f (if engine.isSmall drafts minimumGroupSize draft then draft.popped else draft) else draft,
      fun others hperm => ?_⟩
    have hround : engine.groupRound minimumGroupSize others = others.map fun draft =>
        if engine.isSmall drafts minimumGroupSize draft then draft.popped else draft := by
      rw [EngineContext.groupRound, isSmall_perm hperm]
    rw [EngineContext.groupLoop, isSmall_perm hperm, hperm.any_eq]
    split
    · rw [hround, hf _ (hperm.map _), List.map_map]
      rfl
    · exact (List.map_id others).symm

/-- **Order does not matter**: whatever the order, the policy makes the same of each draft. -/
theorem applyMinimumGroupPolicy_perm (engine : EngineContext) (minimumGroupSize : Nat)
    (drafts : List DraftOperation) :
    ∃ f : DraftOperation → DraftOperation, ∀ others : List DraftOperation, others.Perm drafts →
      engine.applyMinimumGroupPolicy minimumGroupSize others = others.map f := by
  by_cases hsize : minimumGroupSize ≤ 1
  · refine ⟨id, fun others _ => ?_⟩
    rw [EngineContext.applyMinimumGroupPolicy, if_pos hsize, List.map_id]
  · obtain ⟨f, hf⟩ := @groupLoop_perm engine minimumGroupSize (flagCount drafts) drafts
    refine ⟨fun draft => engine.remeasured (f draft), fun others hperm => ?_⟩
    have hcount : (others.map (·.optionalTail.length)).sum = flagCount drafts :=
      (hperm.map _).sum_eq
    rw [EngineContext.applyMinimumGroupPolicy, if_neg hsize]
    simp only [hcount, hf others hperm, List.map_map]
    rfl

/-! ## The folders of a draft -/

/-- What the policy makes of a draft: the last folders that are optional are left out, in the
proposed and in the machine destination alike. -/
def LeavesOut (draft result : DraftOperation) : Prop :=
  ∃ count, count ≤ draft.optionalTail.length
    ∧ result.optionalTail = draft.optionalTail.take (draft.optionalTail.length - count)
    ∧ result.operation.proposedDestination = draft.operation.proposedDestination.take
        (draft.operation.proposedDestination.length - count)
    ∧ result.operation.machineDestination = draft.operation.machineDestination.take
        (draft.operation.machineDestination.length - count)
    ∧ (∀ index, draft.optionalTail.length - count ≤ index → index < draft.optionalTail.length →
        draft.optionalTail[index]? = some true)
    ∧ result.operation.userOverride = draft.operation.userOverride

theorem take_sub_take {α : Type} (l : List α) (first second : Nat) :
    (l.take (l.length - first)).take ((l.take (l.length - first)).length - second)
      = l.take (l.length - (first + second)) := by
  rw [List.take_take, List.length_take]
  congr 1
  omega

theorem LeavesOut.refl (draft : DraftOperation) : LeavesOut draft draft :=
  ⟨0, Nat.zero_le _, by simp, by simp, by simp, fun index h h' => by omega, rfl⟩

theorem LeavesOut.trans {a b c : DraftOperation} (h : LeavesOut a b) (h' : LeavesOut b c) :
    LeavesOut a c := by
  obtain ⟨first, hfirst, htail, hproposed, hmachine, hflags, huser⟩ := h
  obtain ⟨second, hsecond, htail', hproposed', hmachine', hflags', huser'⟩ := h'
  have hlength : b.optionalTail.length = a.optionalTail.length - first := by
    rw [htail, List.length_take]
    omega
  refine ⟨first + second, by omega, ?_, ?_, ?_, fun index hge hlt => ?_, huser'.trans huser⟩
  · rw [htail', htail, take_sub_take]
  · rw [hproposed', hproposed, take_sub_take]
  · rw [hmachine', hmachine, take_sub_take]
  · by_cases hcut : a.optionalTail.length - first ≤ index
    · exact hflags index hcut hlt
    · have hflag := hflags' index (by omega) (by omega)
      rwa [htail, List.getElem?_take_of_lt (by omega)] at hflag

theorem LeavesOut.popped (h : draft.optionalTail.getLast? = some true) :
    LeavesOut draft draft.popped := by
  have hne : draft.optionalTail ≠ [] := by
    intro hnil
    rw [hnil] at h
    exact nomatch h
  have hpos := List.length_pos_of_ne_nil hne
  refine ⟨1, hpos, List.dropLast_eq_take, List.dropLast_eq_take, List.dropLast_eq_take,
    fun index hge hlt => ?_, rfl⟩
  rw [List.getLast?_eq_getElem?] at h
  have hindex : index = draft.optionalTail.length - 1 := by omega
  rw [hindex]
  exact h

theorem LeavesOut.remeasured (draft : DraftOperation) :
    LeavesOut draft (engine.remeasured draft) :=
  ⟨0, Nat.zero_le _, by simp [EngineContext.remeasured], by simp [EngineContext.remeasured],
    by simp [EngineContext.remeasured], fun index h h' => by omega, rfl⟩

theorem applyMinimumGroupPolicy_leavesOut (engine : EngineContext) (minimumGroupSize : Nat)
    (drafts : List DraftOperation) :
    List.Forall₂ LeavesOut drafts (engine.applyMinimumGroupPolicy minimumGroupSize drafts) :=
  applyMinimumGroupPolicy_forall₂ LeavesOut.refl (fun _ _ _ => LeavesOut.trans)
    (fun _ => LeavesOut.popped) LeavesOut.remeasured minimumGroupSize drafts

/-! ## Folders that only sort -/

/-- A year, or the folder of a kind of document. -/
def IsSortingFolder (name : String) : Prop :=
  (∃ input documentType includeYear, usefulYear input documentType includeYear = some name)
    ∨ ∃ documentType inside folder language, typeFolder documentType inside = some folder
      ∧ localizedTypeFolder folder language = name

/-- Optional folders come last, and only sort. -/
structure OptionalLast (folders : Folders) : Prop where
  last : folders.Pairwise fun a b => a.2 = true → b.2 = true
  sorting : ∀ folder ∈ folders, folder.2 = true → IsSortingFolder folder.1

theorem OptionalLast.nil : OptionalLast [] := ⟨List.Pairwise.nil, List.forall_mem_nil _⟩

/-- A required folder may stand before. -/
theorem OptionalLast.cons {folders : Folders} (h : OptionalLast folders) (name : String) :
    OptionalLast ((name, false) :: folders) where
  last := List.pairwise_cons.2 ⟨fun _ _ htrue => Bool.noConfusion htrue, h.last⟩
  sorting := List.forall_mem_cons.2 ⟨fun htrue => Bool.noConfusion htrue, h.sorting⟩

theorem OptionalLast.append {folders : Folders} (h : OptionalLast folders) (names : List String) :
    OptionalLast (names.map (·, false) ++ folders) := by
  induction names with
  | nil => exact h
  | cons name names ih => exact ih.cons name

theorem OptionalLast.map_required (names : List String) : OptionalLast (names.map (·, false)) := by
  have h := OptionalLast.nil.append names
  rwa [List.append_nil] at h

/-- Folders that are all optional. -/
theorem OptionalLast.of_optional {folders : Folders}
    (h : ∀ folder ∈ folders, folder.2 = true ∧ IsSortingFolder folder.1) : OptionalLast folders where
  last := List.pairwise_of_forall_mem_list fun _ _ b hb _ => (h b hb).1
  sorting := fun folder hfolder _ => (h folder hfolder).2

/-- The folders of years and kinds. -/
theorem optional_year {input : OrganizationSourceInput} {documentType : String}
    {includeYear : Bool} : ∀ folder ∈ (usefulYear input documentType includeYear).toList.map
      (·, true), folder.2 = true ∧ IsSortingFolder folder.1 := by
  intro folder hfolder
  obtain ⟨year, hyear, rfl⟩ := List.mem_map.1 hfolder
  exact ⟨rfl, .inl ⟨input, documentType, includeYear, Option.mem_toList.1 hyear⟩⟩

theorem optional_kind {documentType language : String} {inside : Bool} :
    ∀ folder ∈ (typeFolder documentType inside).toList.map
      (fun folder => (localizedTypeFolder folder language, true)),
      folder.2 = true ∧ IsSortingFolder folder.1 := by
  intro folder hfolder
  obtain ⟨kind, hkind, rfl⟩ := List.mem_map.1 hfolder
  exact ⟨rfl, .inr ⟨documentType, inside, kind, language, Option.mem_toList.1 hkind, rfl⟩⟩

/-- `destination_policy` marks nothing but years and kinds, at the end. -/
theorem destinationPolicy_optionalLast (context documentType : String)
    (customer supplier project : Option String) (input : OrganizationSourceInput)
    (preferences : OrganizationPreferences) (includeYearFolders preferProjectLocation : Bool) :
    OptionalLast (destinationPolicy context documentType customer supplier project input
      preferences includeYearFolders preferProjectLocation).1 := by
  have hboth : ∀ {first second : Folders},
      (∀ folder ∈ first, folder.2 = true ∧ IsSortingFolder folder.1) →
      (∀ folder ∈ second, folder.2 = true ∧ IsSortingFolder folder.1) →
      OptionalLast (first ++ second) :=
    fun hfirst hsecond => .of_optional fun folder hfolder =>
      (List.mem_append.1 hfolder).elim (hfirst folder) (hsecond folder)
  unfold destinationPolicy
  dsimp only
  split_ifs with hpersonal hbusiness
  · exact (OptionalLast.of_optional optional_year).append _
  · unfold businessFolders
    dsimp only
    split
    · exact (((hboth optional_kind optional_year).cons _).cons _).cons _
    · split
      · cases customer with
        | some customer =>
          dsimp only
          rw [List.append_assoc]
          exact ((((hboth optional_year optional_kind).append project.toList).cons customer).cons
            _).cons _
        | none =>
          cases project with
          | some project => exact (((hboth optional_year optional_kind).cons _).cons _).cons _
          | none =>
            cases supplier with
            | some supplier => exact (((hboth optional_year optional_kind).cons _).cons _).cons _
            | none => exact ((hboth optional_year optional_kind).cons _).cons _
      · rw [List.append_assoc]
        exact ((((OptionalLast.of_optional optional_year).append project.toList).append
          (customer.or supplier).toList).cons _).cons _
  · exact .map_required ["TO_REVIEW"]

/-! ## Compiled drafts -/

/-- A draft that was compiled for a file, in whatever build. -/
def EngineContext.Compiled (engine : EngineContext) (draft : DraftOperation) : Prop :=
  ∃ run request input position, engine.compileInput run request input position = draft

/-- What `destination_policy` chooses for a file. -/
def ChosenByPolicy (input : OrganizationSourceInput) (context documentType : String)
    (folders : Folders) : Prop :=
  ∃ preferences includeYearFolders preferProjectLocation,
    (destinationPolicy context documentType input.identities.customer input.identities.supplier
      input.identities.project input preferences includeYearFolders preferProjectLocation).1
      = folders

/-- All folders are required, or `destination_policy` has chosen them. -/
def RequiredOrChosen (input : OrganizationSourceInput) (context documentType : String)
    (folders : Folders) : Prop :=
  (∀ folder ∈ folders, folder.2 = false) ∨ ChosenByPolicy input context documentType folders

variable {input : OrganizationSourceInput} {context documentType : String} {folders : Folders}

theorem RequiredOrChosen.map_required (names : List String) :
    RequiredOrChosen input context documentType (names.map (·, false)) := by
  refine .inl fun folder hfolder => ?_
  obtain ⟨name, -, rfl⟩ := List.mem_map.1 hfolder
  rfl

theorem ChosenByPolicy.optionalLast (h : ChosenByPolicy input context documentType folders) :
    OptionalLast folders := by
  obtain ⟨preferences, includeYearFolders, preferProjectLocation, rfl⟩ := h
  exact destinationPolicy_optionalLast ..

theorem RequiredOrChosen.optionalLast (h : RequiredOrChosen input context documentType folders) :
    OptionalLast folders := by
  rcases h with hrequired | hchosen
  · constructor
    · refine List.pairwise_of_forall_mem_list fun a ha b _ htrue => ?_
      rw [hrequired a ha] at htrue
      exact nomatch htrue
    · intro folder hfolder htrue
      rw [hrequired folder hfolder] at htrue
      exact nomatch htrue
  · exact hchosen.optionalLast

/-- The flags of a compiled draft are those of the folders its machine destination was fitted from,
unless the user has decided on it. -/
structure Flagged (draft : DraftOperation) : Prop where
  machine : draft.operation.userOverride = false →
    draft.operation.proposedDestination = draft.operation.machineDestination
      ∧ ∃ (input : OrganizationSourceInput) (policy : VirtualPathPolicy) (folders : Folders)
          (filename : String),
        input.fileId = draft.operation.fileId
          ∧ RequiredOrChosen input draft.operation.semanticContext draft.operation.documentType
            folders
          ∧ draft.optionalTail = folders.map (·.2)
          ∧ draft.operation.machineDestination
            = (policy.fitMachinePath (folders.map (·.1)) filename).destination
  user : draft.operation.userOverride = true → true ∉ draft.optionalTail
    ∧ draft.optionalTail.length = draft.operation.proposedDestination.length

theorem makeDraft_flagged {id : ProposalItemId} {user : Option OrganizationProposalOverride}
    {policy : VirtualPathPolicy} {filename review : String} {needsReview : Bool}
    {kind : ProposalOperationKind} {confidence : Rat × ProposalConfidenceLevel}
    {reasons : List OrganizationReason}
    (hfolders : RequiredOrChosen input context documentType folders) :
    Flagged (engine.makeDraft id input user (policy.fitMachinePath (folders.map (·.1)) filename)
      (folders.map (·.2)) (decidedPlacement policy review user input
        (.ofFitted (policy.fitMachinePath (folders.map (·.1)) filename) needsReview))
      kind confidence reasons context documentType) := by
  cases user with
  | none =>
    exact ⟨fun _ => ⟨rfl, input, policy, folders, filename, rfl, hfolders, rfl, rfl⟩, nofun⟩
  | some user =>
    refine ⟨nofun, fun _ => ⟨fun htrue => ?_, List.length_map _⟩⟩
    obtain ⟨_, -, hfalse⟩ := List.mem_map.1 htrue
    exact nomatch hfalse

/-- A rule brings required folders. -/
theorem byRule_requiredOrChosen {policy : VirtualPathPolicy} {review : String}
    {winning : Option LocationKind} {chosen : Chosen} {otherwise : Chosen → Chosen}
    (h : RequiredOrChosen input context documentType (otherwise chosen).folders) :
    RequiredOrChosen input context documentType
      (Chosen.byRule policy review input winning chosen otherwise).folders := by
  unfold Chosen.byRule
  split
  · split
    · exact .map_required _
    · exact .map_required [review]
  · exact .map_required _
  · exact h

theorem compileInput_flagged (run : BuildRun) (request : OrganizationBuildRequest)
    (input : OrganizationSourceInput) (position : Nat) :
    Flagged (engine.compileInput run request input position) := by
  unfold EngineContext.compileInput EngineContext.compileOperation
  dsimp only
  split
  · exact makeDraft_flagged (byRule_requiredOrChosen (.map_required _))
  · refine makeDraft_flagged (byRule_requiredOrChosen ?_)
    refine iteInduction (motive := fun chosen : Chosen => RequiredOrChosen _ _ _ chosen.folders)
      (fun _ => .map_required _) fun _ => ?_
    exact iteInduction (motive := fun pair : Folders × List OrganizationReason =>
      RequiredOrChosen _ _ _ pair.1) (fun _ => .map_required ["TO_REVIEW"])
        fun _ => .inr ⟨_, _, _, rfl⟩

theorem EngineContext.Compiled.flagged (h : engine.Compiled draft) : Flagged draft := by
  obtain ⟨run, request, input, position, rfl⟩ := h
  exact compileInput_flagged run request input position

/-- A compiled draft has a flag for each of its folders at least. -/
theorem Flagged.length_le (h : Flagged draft) :
    draft.operation.proposedDestination.length ≤ draft.optionalTail.length := by
  cases huser : draft.operation.userOverride with
  | true => exact (h.user huser).2.ge
  | false =>
    obtain ⟨hproposed, _, policy, folders, filename, -, -, hflags, hmachine⟩ := h.machine huser
    rw [hproposed, hmachine, hflags, VirtualPathPolicy.fitMachinePath_length, List.length_map,
      List.length_map]
    exact min_le_right _ _

/-- After an optional folder all flags are set. -/
theorem Flagged.flag_later (h : Flagged draft) {first later : Nat} (hle : first ≤ later)
    (hfirst : draft.optionalTail[first]? = some true) (hlater : later < draft.optionalTail.length) :
    draft.optionalTail[later]? = some true := by
  cases huser : draft.operation.userOverride with
  | true => exact absurd (List.mem_of_getElem? hfirst) (h.user huser).1
  | false =>
    obtain ⟨-, _, _, folders, _, -, hfolders, hflags, -⟩ := h.machine huser
    rcases hle.eq_or_lt with rfl | hlt
    · exact hfirst
    · have hpairwise : draft.optionalTail.Pairwise fun a b => a = true → b = true := by
        rw [hflags, List.pairwise_map]
        exact hfolders.optionalLast.last
      obtain ⟨hbound, hvalue⟩ := List.getElem?_eq_some_iff.1 hfirst
      have hset := List.pairwise_iff_getElem.1 hpairwise first later hbound hlater hlt hvalue
      rw [List.getElem?_eq_getElem hlater, hset]

/-! ## Groups -/

/-- The file goes to a folder or below it, letter case aside. -/
def EngineContext.isIn (engine : EngineContext) (folder : List String) (draft : DraftOperation) :
    Bool :=
  (folderKeys draft.operation.proposedDestination).any fun front =>
    engine.groupKey front = engine.groupKey folder

theorem groupKey_concat {front : List String} (hfront : front ≠ []) (name : String) :
    engine.groupKey (front ++ [name])
      = engine.groupKey front ++ "\\" ++ engine.toLowercase name := by
  unfold EngineContext.groupKey
  rw [List.map_append, List.map_singleton, String.intercalate_append_of_ne_nil
    (mt List.map_eq_nil_iff.1 hfront) (List.cons_ne_nil _ _), String.intercalate_singleton]

/-- A folder's key is longer than the key of the one it is in. -/
theorem groupKey_take_lt {destination : List String} {index : Nat}
    (hindex : index + 1 < destination.length) :
    (engine.groupKey (destination.take (index + 1))).length
      < (engine.groupKey (destination.take (index + 2))).length := by
  have hfront : destination.take (index + 1) ≠ [] := by
    rw [Ne, List.take_eq_nil_iff]
    rintro (hzero | hnil)
    · omega
    · simp [hnil] at hindex
  rw [List.take_succ_eq_append_getElem hindex, groupKey_concat hfront, String.length_append,
    String.length_append]
  have : "\\".length = 1 := rfl
  omega

/-- The folders on the way to a destination have different keys. -/
theorem groupKeys_nodup (destination : List String) :
    ((folderKeys destination).map engine.groupKey).Nodup := by
  have hlonger : ∀ first gap, first + gap + 1 < destination.length →
      (engine.groupKey (destination.take (first + 1))).length
        < (engine.groupKey (destination.take (first + gap + 2))).length := by
    intro first gap hbound
    induction gap with
    | zero => exact groupKey_take_lt hbound
    | succ gap ih => exact (ih (by omega)).trans (groupKey_take_lt hbound)
  rw [folderKeys, List.map_map]
  refine List.Nodup.map_on (fun first hfirst second hsecond heq => ?_) List.nodup_range
  rw [List.mem_range] at hfirst hsecond
  have hlength := congrArg String.length heq
  simp only [Function.comp_apply] at hlength
  rcases Nat.lt_trichotomy first second with hlt | hsame | hlt
  · have := hlonger first (second - first - 1) (by omega)
    rw [show first + (second - first - 1) + 2 = second + 1 by omega] at this
    omega
  · exact hsame
  · have := hlonger second (first - second - 1) (by omega)
    rw [show second + (first - second - 1) + 2 = first + 1 by omega] at this
    omega

/-- The count of a folder is the number of files in it. -/
theorem groupCount_eq_countP (folder : List String) :
    engine.groupCount drafts (engine.groupKey folder) = drafts.countP (engine.isIn folder) := by
  induction drafts with
  | nil => rfl
  | cons draft rest ih =>
    unfold EngineContext.groupCount at ih ⊢
    rw [List.flatMap_cons, List.count_append, ih, List.countP_cons, Nat.add_comm,
      (groupKeys_nodup _).count]
    congr 1
    refine if_congr ?_ rfl rfl
    simp [EngineContext.isIn]

end Zemo.Organizer
