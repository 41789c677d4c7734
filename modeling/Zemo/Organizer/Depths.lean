import Zemo.Organizer.PassRules

set_option autoImplicit false

/-! # Rows through the passes

Whether the row of an operation is accepted is settled when its file is compiled: the passes take
optional folders away, which only files that fit have, and what they do to names never leaves a file
without a path. -/

namespace Zemo.Organizer

open VirtualPathPolicy

variable {engine : EngineContext} {policy : VirtualPathPolicy}

/-! ## Lengths of names -/

theorem utf16Units_pos (c : Char) : 0 < utf16Units c := by
  unfold utf16Units
  split <;> omega

theorem utf16Units_le (c : Char) : utf16Units c ≤ 2 := by
  unfold utf16Units
  split <;> omega

theorem utf16Count_pos_iff {value : String} : 0 < utf16Count value ↔ value ≠ "" := by
  rw [ne_eq, ← String.toList_eq_nil_iff, utf16Count]
  cases value.toList with
  | nil => simp
  | cons c rest =>
      have := utf16Units_pos c
      simp only [List.map_cons, List.sum_cons, reduceCtorEq, not_false_eq_true, iff_true]
      omega

theorem pathLengthUtf16_pos_iff {destination : List String} {name : String} :
    0 < pathLengthUtf16 destination name ↔ destination ≠ [] ∨ name ≠ "" := by
  rw [← utf16Count_pos_iff, ← List.length_pos_iff, pathLengthUtf16]
  constructor
  · intro h
    by_cases hdestination : destination = []
    · subst hdestination
      simp only [List.map_nil, List.sum_nil, List.length_nil] at h
      omega
    · exact .inl (List.length_pos_iff.2 hdestination)
  · rintro (h | h) <;> omega

theorem pathLengthUtf16_pos_of_name (destination : List String) {name : String} (h : name ≠ "") :
    0 < pathLengthUtf16 destination name :=
  pathLengthUtf16_pos_iff.2 (.inr h)

/-! ## Judged drafts -/

/-- The row of an operation can be told from what is known when its file is compiled: it is accepted
    exactly when `c` holds, and no pass can change that. -/
structure Judged (c : Prop) (draft : DraftOperation) : Prop where
  machineNamed : draft.operation.machineName ≠ ""
  /-- Folders that may be left out are only there where the row fits, and a name is left. -/
  droppable : true ∈ draft.optionalTail → draft.operation.proposedName ≠ "" ∧ c
  placed : isLeftAlone draft.operation = true
    ∨ 0 < pathLengthUtf16 draft.operation.proposedDestination draft.operation.proposedName
      ∧ 1 ≤ draft.operation.proposedPathLength
  fits : draft.operation.proposedDestination.length ≤ 8 ∧ 1 ≤ draft.operation.proposedPathLength
    ↔ c

/-- An operation as it comes out of the store: its row was accepted, and it was made by a build. -/
structure StoredOperation (operation : OrganizationProposalOperation) : Prop where
  machineNamed : operation.machineName ≠ ""
  placed : isLeftAlone operation = true
    ∨ 0 < pathLengthUtf16 operation.proposedDestination operation.proposedName
      ∧ 1 ≤ operation.proposedPathLength
  measured : operation.proposedDepth = operation.proposedDestination.length
  fits : FitsTable operation

/-- The operations of a stored revision: one for each file. -/
structure StoredOperations (operations : List OrganizationProposalOperation) : Prop where
  files_nodup : (operations.map (·.fileId)).Nodup
  stored : ∀ operation ∈ operations, StoredOperation operation

/-- The depth of an operation is that of its destination. -/
def Measured (draft : DraftOperation) : Prop :=
  draft.operation.proposedDepth = draft.operation.proposedDestination.length

variable {c : Prop} {draft : DraftOperation}

theorem Judged.fitsTable_iff (h : Judged c draft) (hmeasured : Measured draft) :
    FitsTable draft.operation ↔ c := by
  rw [FitsTable, hmeasured]
  exact h.fits

theorem Judged.congr {c' : Prop} (h : Judged c draft) (hc : c ↔ c') : Judged c' draft :=
  ⟨h.machineNamed, fun htail => (h.droppable htail).imp_right hc.1, h.placed, h.fits.trans hc⟩

theorem Judged.stored (h : Judged c draft) (hmeasured : Measured draft)
    (hfits : FitsTable draft.operation) : StoredOperation draft.operation :=
  ⟨h.machineNamed, h.placed, hmeasured, hfits⟩

/-- What is carried over from a stored revision fits. -/
theorem StoredOperation.judged {operation : OrganizationProposalOperation}
    (h : StoredOperation operation) (id : ProposalItemId) :
    Judged True (draftFromPreviousOperation id operation)
      ∧ Measured (draftFromPreviousOperation id operation) := by
  have hshallow : operation.proposedDestination.length ≤ 8 := h.measured ▸ h.fits.1
  refine ⟨⟨h.machineNamed, fun hmem => ?_, h.placed, iff_of_true ⟨hshallow, h.fits.2⟩ trivial⟩,
    h.measured⟩
  obtain ⟨_, -, hfalse⟩ := List.mem_map.1 hmem
  exact absurd hfalse Bool.false_ne_true

theorem Judged.placed_of_moved (h : Judged c draft) (hmoved : isLeftAlone draft.operation = false) :
    0 < pathLengthUtf16 draft.operation.proposedDestination draft.operation.proposedName
      ∧ 1 ≤ draft.operation.proposedPathLength :=
  h.placed.resolve_left (by rw [hmoved]; exact Bool.false_ne_true)

/-! ## The group policy -/

theorem Judged.popped (h : Judged c draft) (htail : draft.optionalTail.getLast? = some true) :
    Judged c draft.popped := by
  have hdrop := h.droppable (List.mem_of_getLast? htail)
  have hfits := h.fits.2 hdrop.2
  refine ⟨h.machineNamed, fun hmem => h.droppable (List.mem_of_mem_dropLast hmem),
    .inr ⟨pathLengthUtf16_pos_of_name _ hdrop.1, hfits.2⟩, iff_of_true ⟨?_, hfits.2⟩ hdrop.2⟩
  exact le_trans (by simp [DraftOperation.popped]) hfits.1

theorem Judged.remeasured (h : Judged c draft) : Judged c (engine.remeasured draft) :=
  ⟨h.machineNamed, h.droppable, h.placed, h.fits⟩

theorem applyMinimumGroupPolicy_measured {minimumGroupSize : Nat} {drafts : List DraftOperation}
    (h : ∀ draft ∈ drafts, Measured draft) :
    ∀ draft ∈ engine.applyMinimumGroupPolicy minimumGroupSize drafts, Measured draft := by
  unfold EngineContext.applyMinimumGroupPolicy
  split
  · exact h
  · intro draft hdraft
    obtain ⟨_, -, rfl⟩ := List.mem_map.1 hdraft
    rfl

/-! ## Names -/

theorem resetCollisionName_judged (affected : List FileId) (h : Judged c draft) :
    Judged c (resetCollisionName affected draft) := by
  have hplaced : isLeftAlone draft.operation = true
      ∨ 0 < pathLengthUtf16 draft.operation.proposedDestination draft.operation.machineName
        ∧ 1 ≤ draft.operation.proposedPathLength :=
    h.placed.imp_right fun hmoved =>
      ⟨pathLengthUtf16_pos_of_name _ h.machineNamed, hmoved.2⟩
  have hdrop : true ∈ draft.optionalTail → draft.operation.machineName ≠ "" ∧ c :=
    fun htail => ⟨h.machineNamed, (h.droppable htail).2⟩
  unfold resetCollisionName
  simp only
  split
  · exact h
  · split
    · split
      · exact ⟨h.machineNamed, hdrop, hplaced, h.fits⟩
      · exact ⟨h.machineNamed, hdrop, hplaced, h.fits⟩
    · exact h

theorem resetCollisionName_measured (affected : List FileId) (h : Measured draft) :
    Measured (resetCollisionName affected draft) := by
  unfold resetCollisionName
  simp only
  split
  · exact h
  · split
    · split <;> exact h
    · exact h

theorem collisionName_ne_empty (filename : String) (ordinal maximumUtf16 : Nat) :
    collisionName filename ordinal maximumUtf16 ≠ "" := by
  have hsuffix : ∀ stem tail : String, stem ++ ("_" ++ tail) ≠ "" := by
    intro stem tail h
    have hlist := congrArg String.toList h
    simp at hlist
  unfold collisionName
  split
  rename_i ending hsplit
  cases ending with
  | none => exact hsuffix _ _
  | some ending =>
      intro h
      have hlist := congrArg String.toList h
      simp at hlist

theorem Judged.collisionStep (h : Judged c draft) {result : DraftOperation}
    (hstep : CollisionStep policy draft result) : Judged c result := by
  cases hstep with
  | kept => exact h
  | ofUser code explanation hmoved huser =>
      exact ⟨h.machineNamed, h.droppable, .inr (h.placed_of_moved hmoved), h.fits⟩
  | unresolved code explanation hmoved hmachine =>
      obtain ⟨hplace, hlength⟩ := h.placed_of_moved hmoved
      exact ⟨h.machineNamed, h.droppable, .inr ⟨hplace, hplace⟩,
        (and_congr_right fun _ => iff_of_true hplace hlength).trans h.fits⟩
  | suffixed suffix hmoved hmachine hshort =>
      obtain ⟨-, hlength⟩ := h.placed_of_moved hmoved
      have hname := collisionName_ne_empty draft.operation.proposedName suffix
        policy.maximumFilenameUtf16
      have hplace : 0 < pathLengthUtf16 draft.operation.proposedDestination
          (collisionName draft.operation.proposedName suffix policy.maximumFilenameUtf16) :=
        pathLengthUtf16_pos_of_name _ hname
      exact ⟨h.machineNamed, fun htail => ⟨hname, (h.droppable htail).2⟩, .inr ⟨hplace, hplace⟩,
        (and_congr_right fun _ => iff_of_true hplace hlength).trans h.fits⟩

theorem Measured.collisionStep (h : Measured draft) {result : DraftOperation}
    (hstep : CollisionStep policy draft result) : Measured result := by
  cases hstep <;> exact h

/-! ## Passes -/

/-- What a pass makes of a draft is for the same file, and its row is judged the same. -/
structure Follows (draft result : DraftOperation) : Prop where
  id : result.operation.id = draft.operation.id
  fileId : result.operation.fileId = draft.operation.fileId
  userOverride : result.operation.userOverride = draft.operation.userOverride
  stale : result.operation.stale = draft.operation.stale
  judged : ∀ c, Judged c draft → Judged c result

theorem Follows.refl (draft : DraftOperation) : Follows draft draft :=
  ⟨rfl, rfl, rfl, rfl, fun _ h => h⟩

theorem Follows.trans {first second third : DraftOperation} (h : Follows first second)
    (h' : Follows second third) : Follows first third :=
  ⟨h'.id.trans h.id, h'.fileId.trans h.fileId, h'.userOverride.trans h.userOverride,
    h'.stale.trans h.stale, fun c hc => h'.judged c (h.judged c hc)⟩

theorem applyMinimumGroupPolicy_follows (engine : EngineContext) (minimumGroupSize : Nat)
    (drafts : List DraftOperation) :
    List.Forall₂ Follows drafts (engine.applyMinimumGroupPolicy minimumGroupSize drafts) :=
  applyMinimumGroupPolicy_forall₂ Follows.refl (fun _ _ _ h h' => h.trans h')
    (fun _ htail => ⟨rfl, rfl, rfl, rfl, fun _ h => h.popped htail⟩)
    (fun _ => ⟨rfl, rfl, rfl, rfl, fun _ h => h.remeasured⟩) _ _

theorem resetCollisionName_follows (affected : List FileId) (draft : DraftOperation) :
    Follows draft (resetCollisionName affected draft) := by
  refine ⟨?_, ?_, ?_, ?_, fun _ h => resetCollisionName_judged affected h⟩
  all_goals
    unfold resetCollisionName
    simp only
    split
    · rfl
    · split
      · split <;> rfl
      · rfl

theorem resetCollisionNames_follows (affected : List FileId) (drafts : List DraftOperation) :
    List.Forall₂ (fun draft result => Follows draft result ∧ (Measured draft → Measured result))
      drafts (resetCollisionNamesForNeighborhood affected drafts) :=
  Pointwise.of_map fun draft _ =>
    ⟨resetCollisionName_follows affected draft, resetCollisionName_measured affected⟩

theorem CollisionStep.follows {draft result : DraftOperation}
    (h : CollisionStep policy draft result) : Follows draft result := by
  refine ⟨?_, ?_, ?_, ?_, fun _ hjudged => hjudged.collisionStep h⟩
  all_goals cases h <;> rfl

theorem resolveCollisions_follows (drafts : List DraftOperation) :
    List.Forall₂ (fun draft result => Follows draft result ∧ (Measured draft → Measured result))
      drafts (engine.resolveCollisions policy drafts) :=
  resolveCollisions_forall₂ (fun _ _ h => ⟨h.follows, fun hmeasured => hmeasured.collisionStep h⟩)
    drafts

end Zemo.Organizer

/-! ## Fitted paths

A path the machine makes has a name, and as many folders as were asked for up to the depth of the
policy. -/

namespace Zemo

open Organizer

/-! ## Names -/

theorem cleanComponent_ne_nil (input : String) : cleanComponent input ≠ [] := by
  unfold cleanComponent
  simp only
  generalize hcut : (replaceInvalid false (trimChars input.toList)).rdropWhile _ = cut
  have hdefault : (if cut = [] ∨ cut = ['.'] ∨ cut = ['.', '.'] then "Unclassified".toList
      else cut) ≠ [] := by
    split
    · decide
    · rename_i hcut
      exact (not_or.1 hcut).1
  generalize (if cut = [] ∨ cut = ['.'] ∨ cut = ['.', '.'] then "Unclassified".toList
      else cut) = output at hdefault ⊢
  have hset : (if hasDrivePrefix output then output.set 1 '_' else output) ≠ [] := by
    split
    · rwa [ne_eq, List.set_eq_nil_iff]
    · exact hdefault
  generalize (if hasDrivePrefix output then output.set 1 '_' else output) = safe at hset ⊢
  split
  · exact List.cons_ne_nil _ _
  · exact hset

theorem truncateChars_ne_nil {chars : List Char} {maximum : Nat} (h : chars ≠ [])
    (hmaximum : 2 ≤ maximum) : truncateChars maximum chars ≠ [] := by
  cases chars with
  | nil => exact absurd rfl h
  | cons c rest =>
      have hunits := utf16Units_le c
      rw [truncateChars, if_pos (by omega)]
      exact List.cons_ne_nil _ _

theorem truncateUtf16_ne_empty {input : String} {maximum : Nat} (h : input ≠ "")
    (hmaximum : 2 ≤ maximum) : truncateUtf16 input maximum ≠ "" := by
  rw [ne_eq, ← String.toList_eq_nil_iff] at h ⊢
  rw [truncateUtf16, String.toList_ofList]
  exact truncateChars_ne_nil h hmaximum

theorem truncateFilenamePreservingExtension_ne_empty {input : String} {maximum : Nat}
    (h : input ≠ "") (hmaximum : 2 ≤ maximum) :
    truncateFilenamePreservingExtension input maximum ≠ "" := by
  unfold truncateFilenamePreservingExtension
  split
  · exact h
  · split
    · exact truncateUtf16_ne_empty h hmaximum
    · simp only
      split
      · exact truncateUtf16_ne_empty h hmaximum
      · intro hempty
        have hlist := congrArg String.toList hempty
        simp at hlist

theorem sanitizeComponent_ne_empty (input : String) {maximum : Nat} (preserveExtension : Bool)
    (hmaximum : 2 ≤ maximum) : (sanitizeComponent input maximum preserveExtension).value ≠ "" := by
  have hclean : String.ofList (cleanComponent input) ≠ "" := by
    rw [ne_eq, ← String.toList_eq_nil_iff, String.toList_ofList]
    exact cleanComponent_ne_nil input
  unfold sanitizeComponent
  simp only
  split
  · exact truncateFilenamePreservingExtension_ne_empty hclean hmaximum
  · exact truncateUtf16_ne_empty hclean hmaximum

namespace VirtualPathPolicy

variable {policy : VirtualPathPolicy}

theorem fitMachinePath_name_ne_empty (hmaximum : 2 ≤ policy.maximumFilenameUtf16)
    (destination : List String) (filename : String) :
    (policy.fitMachinePath destination filename).name ≠ "" := by
  have hname : (policy.sanitizeMachineFilename filename).value ≠ "" :=
    sanitizeComponent_ne_empty filename true hmaximum
  unfold fitMachinePath
  simp only
  split
  · exact truncateFilenamePreservingExtension_ne_empty hname (by omega)
  · exact hname

/-! ## Folders -/

theorem shortenSegments_length (name : String) (destination : List String) (index : Nat) :
    (policy.shortenSegments name destination index).length = destination.length := by
  induction index generalizing destination with
  | zero => rfl
  | succ index ih =>
      rw [shortenSegments]
      split
      · rfl
      · rw [ih, List.length_set]

theorem fitMachinePath_length (destination : List String) (filename : String) :
    (policy.fitMachinePath destination filename).destination.length
      = min policy.maximumDepth destination.length := by
  unfold fitMachinePath
  simp only [shortenSegments_length, List.length_take, List.length_map]

end VirtualPathPolicy

/-! ## Decisions -/

namespace Organizer

theorem extendDestination_length {maximumDepth : Nat} {destination : List String}
    (h : destination.length ≤ maximumDepth) (components : List String) :
    (extendDestination maximumDepth destination components).length ≤ maximumDepth := by
  induction components generalizing destination with
  | nil => exact h
  | cons component rest ih =>
      rw [extendDestination]
      split
      · exact h
      · rename_i hroom
        simp only
        split
        · exact ih h
        · refine ih ?_
          rw [List.length_append, List.length_singleton]
          omega

variable {engine : EngineContext}

theorem withMeaningfulFolderContext_length (destination : List String) (path : String)
    (maximumDepth : Nat) :
    (engine.withMeaningfulFolderContext destination path maximumDepth).length ≤ maximumDepth := by
  unfold EngineContext.withMeaningfulFolderContext
  split
  · rw [List.length_take]
    exact min_le_left _ _
  · exact extendDestination_length (by omega) _

/-- What a decision moves, it moves into a few folders. -/
def ConsumerDecision.Shallow (decision : ConsumerDecision) : Prop :=
  decision.leaveInPlace = false → decision.destination.length ≤ consumerMaxDestinationDepth

theorem maybePreserveExisting_shallow {path : String} {decision : ConsumerDecision}
    (h : decision.destination.length ≤ consumerMaxDestinationDepth) :
    (maybePreserveExisting path decision).Shallow := by
  unfold maybePreserveExisting
  simp only
  split
  · exact fun _ => h
  · split
    · exact fun hleave => nomatch hleave
    · exact fun _ => h

theorem decideConsumerOrganization_shallow (path name : String) (rootKind : ConsumerRootKind)
    (documentType : Option String) :
    (engine.decideConsumerOrganization path name rootKind documentType).Shallow := by
  have hput : ∀ destination reasonCode explanation : _, destination.length ≤ 2 →
      (putInto destination reasonCode explanation).Shallow :=
    fun destination _ _ h _ => le_trans h (by decide)
  have hleave : ∀ reasonCode explanation : String,
      (leaveInPlace reasonCode explanation).Shallow := fun _ _ h => nomatch h
  have hsettle : ∀ decision : ConsumerDecision, (maybePreserveExisting path
      { decision with
        destination := engine.withMeaningfulFolderContext decision.destination path
          consumerMaxDestinationDepth }).Shallow :=
    fun decision => maybePreserveExisting_shallow (withMeaningfulFolderContext_length _ _ _)
  unfold EngineContext.decideConsumerOrganization
  simp only
  split
  · exact hput _ _ _ (by decide)
  split
  · exact hleave _ _
  split
  · exact hleave _ _
  split
  · exact hput _ _ _ (by decide)
  split
  · exact hleave _ _
  split
  · exact hleave _ _
  split
  · exact hsettle _
  split
  · exact hsettle _
  split
  · exact hput _ _ _ (by decide)
  · exact hleave _ _

end Organizer

end Zemo
