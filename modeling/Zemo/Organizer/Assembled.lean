import Zemo.Organizer.Build

set_option autoImplicit false

/-! # What an incremental build assembles

The operations of the revision before and the drafts that were compiled are put together file by
file: every draft of a file that is still there goes in, no other draft of its file does, and the
identifiers stay apart. -/

namespace Zemo.Organizer

/-! ## Members without repetition -/

section Dedup

variable {α κ : Type} [DecidableEq κ] {key : α → κ}

private theorem foldl_dedup_sublist (members kept : List α) :
    (members.foldl (fun kept a => if key a ∈ kept.map key then kept else kept ++ [a]) kept).Sublist
      (kept ++ members) := by
  induction members generalizing kept with
  | nil => rw [List.foldl_nil, List.append_nil]
  | cons a rest ih =>
      rw [List.foldl_cons]
      refine (ih _).trans ?_
      split
      · exact (List.sublist_cons_self a rest).append_left kept
      · rw [List.append_assoc]
        exact List.Sublist.refl _

theorem dedupBy_sublist (members : List α) : (dedupBy key members).Sublist members :=
  foldl_dedup_sublist members []

private theorem mem_foldl_dedup (members kept : List α) :
    ∀ a, a ∈ kept ∨ a ∈ members →
      key a ∈ (members.foldl
        (fun kept a => if key a ∈ kept.map key then kept else kept ++ [a]) kept).map key := by
  induction members generalizing kept with
  | nil => exact fun a ha => List.mem_map_of_mem (ha.resolve_right List.not_mem_nil)
  | cons b rest ih =>
      intro a ha
      rw [List.foldl_cons]
      by_cases hold : key b ∈ kept.map key
      · rw [if_pos hold]
        rcases ha with ha | ha
        · exact ih _ a (.inl ha)
        · rcases List.mem_cons.1 ha with rfl | ha
          · obtain ⟨a', ha', hkey⟩ := List.mem_map.1 hold
            exact hkey ▸ ih _ a' (.inl ha')
          · exact ih _ a (.inr ha)
      · rw [if_neg hold]
        refine ih _ a ?_
        rw [List.mem_append, List.mem_singleton, or_assoc, ← List.mem_cons]
        exact ha

/-- Every member leaves one of its key. -/
theorem mem_dedupBy (key : α → κ) {members : List α} {a : α} (h : a ∈ members) :
    key a ∈ (dedupBy key members).map key :=
  mem_foldl_dedup members [] a (.inr h)

private theorem foldl_dedup_nodup (members kept : List α) (h : (kept.map key).Nodup) :
    ((members.foldl
      (fun kept a => if key a ∈ kept.map key then kept else kept ++ [a]) kept).map key).Nodup := by
  induction members generalizing kept with
  | nil => exact h
  | cons a rest ih =>
      rw [List.foldl_cons]
      refine ih _ ?_
      split
      · exact h
      · rename_i hnew
        rw [List.map_append, List.map_singleton, List.nodup_append]
        exact ⟨h, List.nodup_singleton _, fun k hk k' hk' heq =>
          hnew (List.mem_singleton.1 hk' ▸ heq ▸ hk)⟩

theorem dedupBy_nodup (members : List α) : ((dedupBy key members).map key).Nodup :=
  foldl_dedup_nodup members [] List.nodup_nil

end Dedup

/-- The last of the only member with a property. -/
theorem getLast?_filter_eq_some {α : Type} {p : α → Bool} {members : List α} {a : α}
    (h : a ∈ members) (hp : p a = true) (hunique : ∀ b ∈ members, p b = true → b = a) :
    (members.filter p).getLast? = some a := by
  cases hlast : (members.filter p).getLast? with
  | none =>
      have hnil := List.getLast?_eq_none_iff.1 hlast
      exact absurd (List.mem_filter.2 ⟨h, hp⟩) (hnil ▸ List.not_mem_nil)
  | some b =>
      obtain ⟨hb, hpb⟩ := List.mem_filter.1 (List.mem_of_getLast? hlast)
      rw [hunique b hb hpb]

/-! ## Carrying over -/

variable {run : BuildRun} {deleted : List FileId}

theorem draftOf_eq_some {drafts : List DraftOperation} {fileId : FileId} {draft : DraftOperation}
    (h : draftOf drafts fileId = some draft) : draft ∈ drafts ∧ draft.operation.fileId = fileId := by
  have hmem := List.mem_filter.1 (List.mem_of_getLast? h)
  exact ⟨hmem.1, of_decide_eq_true hmem.2⟩

theorem draftOf_eq_none {drafts : List DraftOperation} {fileId : FileId}
    (h : draftOf drafts fileId = none) : ∀ draft ∈ drafts, draft.operation.fileId ≠ fileId := by
  intro draft hdraft hfile
  have hnil := List.getLast?_eq_none_iff.1 h
  exact absurd (List.mem_filter.2 ⟨hdraft, decide_eq_true hfile⟩) (hnil ▸ List.not_mem_nil)

/-- What `carryOver` makes of the drafts that were compiled and the operations of the revision
    before. -/
structure Carried (run : BuildRun) (deleted : List FileId) (position : Nat)
    (recompiled : List DraftOperation) (previous : List OrganizationProposalOperation)
    (result : List DraftOperation × List DraftOperation) : Prop where
  /-- What is left was compiled. -/
  left_sublist : result.2.Sublist recompiled
  /-- Each file of the revision before that is not deleted is carried. -/
  files : result.1.map (·.operation.fileId)
    = (previous.map (·.fileId)).filter fun fileId => fileId ∉ deleted
  /-- What is carried was compiled, or is the operation of a file that was not. -/
  carried : ∀ draft ∈ result.1, draft ∈ recompiled
    ∨ ∃ operation ∈ previous, ∃ later, position ≤ later
      ∧ draft = draftFromPreviousOperation (run.newId later) operation
      ∧ ∀ other ∈ recompiled, other.operation.fileId ≠ operation.fileId
  /-- A file that is carried is not left. -/
  apart : ∀ draft ∈ result.1, ∀ other ∈ result.2,
    other.operation.fileId ≠ draft.operation.fileId
  /-- A draft that is the only one of its file is carried or left. -/
  complete : ∀ draft ∈ recompiled,
    (∀ other ∈ recompiled, other.operation.fileId = draft.operation.fileId → other = draft) →
      draft ∈ result.1 ∨ draft ∈ result.2

theorem carryOver_carried (position : Nat) (recompiled : List DraftOperation)
    {previous : List OrganizationProposalOperation} (hprevious : (previous.map (·.fileId)).Nodup) :
    Carried run deleted position recompiled previous
      (carryOver run deleted position recompiled previous) := by
  induction previous generalizing position recompiled with
  | nil =>
      exact ⟨List.Sublist.refl _, rfl, fun _ h => absurd h List.not_mem_nil,
        fun _ h => absurd h List.not_mem_nil, fun _ h _ => Or.inr h⟩
  | cons operation rest ih =>
      rw [List.map_cons, List.nodup_cons] at hprevious
      replace ih := fun position recompiled => ih position recompiled hprevious.2
      rw [carryOver]
      by_cases hdeleted : operation.fileId ∈ deleted
      · rw [if_pos hdeleted]
        have h := ih position recompiled
        refine ⟨h.left_sublist, ?_, fun draft hdraft => (h.carried draft hdraft).imp_right ?_,
          h.apart, h.complete⟩
        · rw [List.map_cons, List.filter_cons_of_neg (by simpa using hdeleted), h.files]
        · rintro ⟨old, hold, hrest⟩
          exact ⟨old, List.mem_cons_of_mem _ hold, hrest⟩
      rw [if_neg hdeleted]
      have hfilter : ((operation :: rest).map (·.fileId)).filter (fun fileId => fileId ∉ deleted)
          = operation.fileId :: (rest.map (·.fileId)).filter fun fileId => fileId ∉ deleted := by
        rw [List.map_cons, List.filter_cons_of_pos (by simpa using hdeleted)]
      cases hdraft : draftOf recompiled operation.fileId with
      | some draft =>
          -- the file was compiled again
          obtain ⟨hmem, hfile⟩ := draftOf_eq_some hdraft
          set left := recompiled.filter fun other => other.operation.fileId ≠ operation.fileId
            with hleft
          have hmemleft : ∀ other, other ∈ left ↔
              other ∈ recompiled ∧ other.operation.fileId ≠ operation.fileId := by
            intro other
            rw [hleft, List.mem_filter, decide_eq_true_eq]
          have h := ih position left
          refine ⟨h.left_sublist.trans List.filter_sublist, ?_, ?_, ?_, ?_⟩
          · rw [hfilter, List.map_cons, hfile, h.files]
          · intro other hother
            rcases List.mem_cons.1 hother with rfl | hother
            · exact .inl hmem
            · refine (h.carried other hother).imp (fun hin => ((hmemleft other).1 hin).1) ?_
              rintro ⟨old, hold, later, hlater, heq, hnone⟩
              refine ⟨old, List.mem_cons_of_mem _ hold, later, hlater, heq, fun other hin hsame => ?_⟩
              refine hnone other ((hmemleft other).2 ⟨hin, fun hoperation => ?_⟩) hsame
              exact hprevious.1 (hoperation ▸ hsame ▸ List.mem_map_of_mem hold)
          · intro other hother left' hin
            rcases List.mem_cons.1 hother with rfl | hother
            · exact hfile ▸ ((hmemleft left').1 (h.left_sublist.subset hin)).2
            · exact h.apart other hother left' hin
          · intro other hother hunique
            by_cases hsame : other.operation.fileId = operation.fileId
            · exact .inl (hunique draft hmem (hfile.trans hsame.symm) ▸ List.mem_cons_self ..)
            · exact (h.complete other ((hmemleft other).2 ⟨hother, hsame⟩)
                fun another hin => hunique another ((hmemleft another).1 hin).1).imp_left
                  (List.mem_cons_of_mem _)
      | none =>
          have h := ih (position + 1) recompiled
          have hnone := draftOf_eq_none hdraft
          refine ⟨h.left_sublist, ?_, ?_, ?_, ?_⟩
          · rw [hfilter, List.map_cons, h.files]
            rfl
          · intro other hother
            rcases List.mem_cons.1 hother with rfl | hother
            · exact .inr ⟨operation, List.mem_cons_self .., position, le_refl _, rfl, hnone⟩
            · refine (h.carried other hother).imp_right ?_
              rintro ⟨old, hold, later, hlater, hrest⟩
              exact ⟨old, List.mem_cons_of_mem _ hold, later, Nat.le_of_succ_le hlater, hrest⟩
          · intro other hother left' hin
            rcases List.mem_cons.1 hother with rfl | hother
            · exact hnone left' (h.left_sublist.subset hin)
            · exact h.apart other hother left' hin
          · exact fun other hother hunique =>
              (h.complete other hother hunique).imp_left (List.mem_cons_of_mem _)

/-! ## Identifiers -/

/-- What is promised of the identifiers a run draws, and of the order of a hash map. -/
structure BuildRun.Lawful (run : BuildRun) : Prop where
  newId_injective : Function.Injective run.newId
  intoValues_perm : ∀ drafts, (run.intoValues drafts).Perm drafts

/-- The identifiers of some drafts are their own, and were drawn before a position. -/
structure DrawnBefore (run : BuildRun) (position : Nat) (drafts : List DraftOperation) : Prop where
  nodup : (drafts.map (·.operation.id)).Nodup
  drawn : ∀ draft ∈ drafts, ∃ earlier < position, draft.operation.id = run.newId earlier

theorem DrawnBefore.sublist {position : Nat} {drafts fewer : List DraftOperation}
    (h : DrawnBefore run position drafts) (hfewer : fewer.Sublist drafts) :
    DrawnBefore run position fewer :=
  ⟨h.nodup.sublist (hfewer.map _), fun draft hdraft => h.drawn draft (hfewer.subset hdraft)⟩

theorem DrawnBefore.later {position : Nat} {drafts : List DraftOperation}
    (h : DrawnBefore run position drafts) : DrawnBefore run (position + 1) drafts :=
  ⟨h.nodup, fun draft hdraft => (h.drawn draft hdraft).imp fun _ ⟨hlt, heq⟩ =>
    ⟨Nat.lt_succ_of_lt hlt, heq⟩⟩

/-- Compiled drafts keep their identifiers, and the others draw new ones. -/
theorem carryOver_ids (deleted : List FileId) (hrun : run.Lawful) {position : Nat} {recompiled : List DraftOperation}
    (previous : List OrganizationProposalOperation) (h : DrawnBefore run position recompiled) :
    let result := carryOver run deleted position recompiled previous
    ((result.1 ++ result.2).map (·.operation.id)).Nodup
      ∧ ∀ draft ∈ result.1 ++ result.2, draft ∈ recompiled
        ∨ ∃ later, position ≤ later ∧ draft.operation.id = run.newId later := by
  induction previous generalizing position recompiled with
  | nil => exact ⟨h.nodup, fun _ hdraft => .inl hdraft⟩
  | cons operation rest ih =>
      rw [carryOver]
      by_cases hdeleted : operation.fileId ∈ deleted
      · rw [if_pos hdeleted]
        exact ih h
      rw [if_neg hdeleted]
      cases hdraft : draftOf recompiled operation.fileId with
      | some draft =>
          obtain ⟨hmem, hfile⟩ := draftOf_eq_some hdraft
          obtain ⟨hnodup, hfrom⟩ := ih (h.sublist (List.filter_sublist
            (p := fun other => other.operation.fileId ≠ operation.fileId)))
          refine ⟨List.nodup_cons.2 ⟨fun hid => ?_, hnodup⟩, fun other hother => ?_⟩
          · obtain ⟨other, hother, hid⟩ := List.mem_map.1 hid
            rcases hfrom other hother with hin | ⟨later, hlater, hnew⟩
            · have hsame := List.inj_on_of_nodup_map h.nodup (List.mem_filter.1 hin).1 hmem hid
              exact of_decide_eq_true (List.mem_filter.1 hin).2 (hsame ▸ hfile)
            · obtain ⟨earlier, hearlier, hdrawn⟩ := h.drawn draft hmem
              have := hrun.newId_injective (hnew.symm.trans (hid.trans hdrawn))
              omega
          · rcases List.mem_cons.1 hother with rfl | hother
            · exact .inl hmem
            · exact (hfrom other hother).imp_left fun hin => (List.mem_filter.1 hin).1
      | none =>
          obtain ⟨hnodup, hfrom⟩ := ih h.later
          refine ⟨List.nodup_cons.2 ⟨fun hid => ?_, hnodup⟩, fun other hother => ?_⟩
          · obtain ⟨other, hother, hid⟩ := List.mem_map.1 hid
            rcases hfrom other hother with hin | ⟨later, hlater, hnew⟩
            · obtain ⟨earlier, hearlier, hdrawn⟩ := h.drawn other hin
              have := hrun.newId_injective (hdrawn.symm.trans hid)
              omega
            · have := hrun.newId_injective (hnew.symm.trans hid)
              omega
          · rcases List.mem_cons.1 hother with rfl | hother
            · exact .inr ⟨position, le_refl _, rfl⟩
            · exact (hfrom other hother).imp_right fun ⟨later, hlater, hnew⟩ =>
                ⟨later, Nat.le_of_succ_le hlater, hnew⟩

/-! ## All drafts -/

variable {request : IncrementalOrganizationBuildRequest} {seedDrafts : List DraftOperation}

/-- What all drafts of an incremental build are, before the passes. -/
structure Assembled (run : BuildRun) (request : IncrementalOrganizationBuildRequest)
    (seedDrafts drafts : List DraftOperation) : Prop where
  /-- Each was compiled, or is the operation of a file that was not. -/
  origin : ∀ draft ∈ drafts, draft ∈ seedDrafts
    ∨ ∃ operation ∈ request.base.previousOperations, ∃ later, seedDrafts.length ≤ later
      ∧ draft = draftFromPreviousOperation (run.newId later) operation
      ∧ ∀ other ∈ seedDrafts, other.operation.fileId ≠ operation.fileId
  remaining : ∀ draft ∈ drafts, draft.operation.fileId ∉ request.deletedFileIds
  files_nodup : (drafts.map (·.operation.fileId)).Nodup
  kept : ∀ operation ∈ request.base.previousOperations,
    operation.fileId ∉ request.deletedFileIds → operation.fileId ∈ drafts.map (·.operation.fileId)
  compiled : (seedDrafts.map (·.operation.fileId)).Nodup →
    ∀ draft ∈ seedDrafts, draft.operation.fileId ∉ request.deletedFileIds → draft ∈ drafts
  ids_nodup : DrawnBefore run seedDrafts.length seedDrafts → (drafts.map (·.operation.id)).Nodup

/-- The drafts that were compiled for files the revision before does not have. -/
def freshDrafts (run : BuildRun) (deleted : List FileId) (carried left : List DraftOperation) :
    List DraftOperation :=
  (dedupBy (·.operation.fileId) ((run.intoValues (left.filter fun draft =>
      draftOf left draft.operation.fileId = some draft)).filter fun draft =>
    draft.operation.fileId ∉ deleted)).filter fun draft =>
      draft.operation.fileId ∉ carried.map (·.operation.fileId)

section Fresh

variable {carried left : List DraftOperation}

theorem mem_freshDrafts (hrun : run.Lawful) {draft : DraftOperation}
    (h : draft ∈ freshDrafts run deleted carried left) :
    draft ∈ left ∧ draft.operation.fileId ∉ deleted
      ∧ draft.operation.fileId ∉ carried.map (·.operation.fileId) := by
  obtain ⟨hmem, hnew⟩ := List.mem_filter.1 h
  obtain ⟨hvalue, hremains⟩ := List.mem_filter.1 ((dedupBy_sublist _).subset hmem)
  have hleft := (List.mem_filter.1 ((hrun.intoValues_perm _).mem_iff.1 hvalue)).1
  exact ⟨hleft, of_decide_eq_true hremains, of_decide_eq_true hnew⟩

theorem freshDrafts_files_nodup :
    ((freshDrafts run deleted carried left).map (·.operation.fileId)).Nodup :=
  (dedupBy_nodup _).sublist (List.filter_sublist.map _)

theorem freshDrafts_ids_nodup (hrun : run.Lawful) (h : (left.map (·.operation.id)).Nodup) :
    ((freshDrafts run deleted carried left).map (·.operation.id)).Nodup := by
  have hfiltered := h.sublist ((List.filter_sublist (p := fun draft : DraftOperation =>
    draftOf left draft.operation.fileId = some draft)).map (·.operation.id))
  have hvalues := ((hrun.intoValues_perm _).map (·.operation.id)).nodup_iff.2 hfiltered
  exact hvalues.sublist
    ((List.filter_sublist.trans ((dedupBy_sublist _).trans List.filter_sublist)).map _)

/-- The only draft of a file that is new goes in. -/
theorem freshDrafts_complete (hrun : run.Lawful) {draft : DraftOperation} (hmem : draft ∈ left)
    (hunique : ∀ other ∈ left, other.operation.fileId = draft.operation.fileId → other = draft)
    (hremains : draft.operation.fileId ∉ deleted)
    (hnew : draft.operation.fileId ∉ carried.map (·.operation.fileId)) :
    draft ∈ freshDrafts run deleted carried left := by
  have hlast : draftOf left draft.operation.fileId = some draft :=
    getLast?_filter_eq_some hmem (decide_eq_true rfl) fun other hother hsame =>
      hunique other hother (of_decide_eq_true hsame)
  have hvalue : draft ∈ (run.intoValues (left.filter fun draft =>
      draftOf left draft.operation.fileId = some draft)).filter fun draft =>
        draft.operation.fileId ∉ deleted :=
    List.mem_filter.2 ⟨(hrun.intoValues_perm _).mem_iff.2
      (List.mem_filter.2 ⟨hmem, decide_eq_true hlast⟩), decide_eq_true hremains⟩
  obtain ⟨other, hother, hfile⟩ := List.mem_map.1
    (mem_dedupBy (fun draft : DraftOperation => draft.operation.fileId) hvalue)
  have hsame := (dedupBy_sublist _).subset hother
  have hleft := (List.mem_filter.1 ((hrun.intoValues_perm _).mem_iff.1
    (List.mem_filter.1 hsame).1)).1
  rw [hunique other hleft hfile] at hother
  exact List.mem_filter.2 ⟨hother, decide_eq_true hnew⟩

end Fresh

theorem assembled_spec (seedDrafts : List DraftOperation) (hrun : run.Lawful)
    (hprevious : (request.base.previousOperations.map (·.fileId)).Nodup) :
    Assembled run request seedDrafts (request.assembled run seedDrafts) := by
  have h : Carried run request.deletedFileIds _ seedDrafts _ _ :=
    carryOver_carried seedDrafts.length seedDrafts hprevious
  have hids : DrawnBefore run seedDrafts.length seedDrafts → _ := fun hdrawn =>
    (carryOver_ids request.deletedFileIds hrun request.base.previousOperations hdrawn).1
  have hassembled : request.assembled run seedDrafts
      = (carryOver run request.deletedFileIds seedDrafts.length seedDrafts
          request.base.previousOperations).1
        ++ freshDrafts run request.deletedFileIds
          (carryOver run request.deletedFileIds seedDrafts.length seedDrafts
            request.base.previousOperations).1
          (carryOver run request.deletedFileIds seedDrafts.length seedDrafts
            request.base.previousOperations).2 := rfl
  rw [hassembled]
  generalize carryOver run request.deletedFileIds seedDrafts.length seedDrafts
    request.base.previousOperations = result at h hids
  obtain ⟨carried, left⟩ := result
  have hseed : ∀ draft ∈ left, draft ∈ seedDrafts := fun draft hdraft =>
    h.left_sublist.subset hdraft
  refine ⟨fun draft hdraft => ?_, fun draft hdraft => ?_, ?_, fun operation hmem hremains => ?_,
    fun hfiles draft hdraft hremains => ?_, fun hdrawn => ?_⟩
  · rcases List.mem_append.1 hdraft with hcarried | hfresh
    · exact h.carried draft hcarried
    · exact .inl (hseed draft (mem_freshDrafts hrun hfresh).1)
  · rcases List.mem_append.1 hdraft with hcarried | hfresh
    · have hfile := List.mem_map_of_mem (f := fun draft => draft.operation.fileId) hcarried
      rw [h.files] at hfile
      exact of_decide_eq_true (List.mem_filter.1 hfile).2
    · exact (mem_freshDrafts hrun hfresh).2.1
  · rw [List.map_append, List.nodup_append, h.files]
    refine ⟨hprevious.filter _, freshDrafts_files_nodup, fun fileId hcarried other hfresh => ?_⟩
    rintro rfl
    obtain ⟨draft, hdraft, rfl⟩ := List.mem_map.1 hfresh
    exact (mem_freshDrafts hrun hdraft).2.2 (h.files ▸ hcarried)
  · have hfile : operation.fileId ∈ carried.map (·.operation.fileId) := h.files ▸
      List.mem_filter.2 ⟨List.mem_map_of_mem hmem, decide_eq_true hremains⟩
    rw [List.map_append]
    exact List.mem_append_left _ hfile
  · have hunique : ∀ other ∈ seedDrafts,
        other.operation.fileId = draft.operation.fileId → other = draft :=
      fun other hother hsame => List.inj_on_of_nodup_map hfiles hother hdraft hsame
    rcases h.complete draft hdraft hunique with hcarried | hleft
    · exact List.mem_append_left _ hcarried
    · refine List.mem_append_right _ (freshDrafts_complete hrun hleft
        (fun other hother => hunique other (hseed other hother)) hremains fun hfile => ?_)
      obtain ⟨other, hother, hsame⟩ := List.mem_map.1 hfile
      exact h.apart other hother draft hleft hsame.symm
  · have hnodup := hids hdrawn
    rw [List.map_append, List.nodup_append] at hnodup ⊢
    refine ⟨hnodup.1, freshDrafts_ids_nodup hrun hnodup.2.1, fun id hcarried other hfresh => ?_⟩
    obtain ⟨draft, hdraft, rfl⟩ := List.mem_map.1 hfresh
    exact hnodup.2.2 id hcarried _ (List.mem_map_of_mem (mem_freshDrafts hrun hdraft).1)

end Zemo.Organizer
