import Zemo.Simulation.Seal

set_option autoImplicit false

/-! # What an unblocked simulation plans

When no item of a proposal is blocked, every item that wants its file somewhere gets its move, to a
place no other file has, and the folders on the way are planned in order, each one once. -/

namespace Zemo.Simulation

open Checked

/-! ## Items that want a place -/

/-- Where the file of an item should go. -/
def ProposalItem.planned? (item : ProposalItem) : Option DestinationIntent :=
  if item.reviewState = .rejected then none else item.action.destination?

/-- An item with where its file is and where it goes. -/
structure Planned where
  item : ProposalItem
  destination : DestinationIntent
  source : SimulationFile

/-- A folder some file needs, written in the encoding of that file. -/
structure FolderRequest where
  rootId : RootId
  encoding : PathEncoding
  folder : RelPath
deriving DecidableEq

def FolderRequest.key (mapping : CaseMapping) (request : FolderRequest) : RootId × String :=
  (request.rootId, caseKey mapping (joinComponents request.folder))

def FolderRequest.directory (request : FolderRequest) : PlannedDirectory where
  rootId := request.rootId
  path := encodeNativePath (joinComponents request.folder) request.encoding
  displayPath := joinComponents request.folder

namespace Planned

def key (mapping : CaseMapping) (planned : Planned) : RootId × String :=
  (planned.destination.rootId, caseKey mapping (joinComponents planned.destination.path))

def move (planned : Planned) : PlannedMove where
  itemId := planned.item.id
  sourceRootId := planned.source.rootId
  sourcePath := planned.source.sourcePath
  destinationRootId := planned.destination.rootId
  destinationPath := encodeNativePath (joinComponents planned.destination.path)
    planned.source.sourcePath.encoding
  fingerprint := planned.source.fingerprint

/-- The folders on the way, from the top. -/
def requests (planned : Planned) : List FolderRequest :=
  (folderPrefixes planned.destination.folderComponents).map fun folder =>
    { rootId := planned.destination.rootId
      encoding := planned.source.sourcePath.encoding
      folder }

/-- What the simulation found of the item and its file. -/
structure Found (files : List SimulationFile) (planned : Planned) : Prop where
  wanted : planned.item.planned? = some planned.destination
  known : snapshotFile files planned.item.id = some planned.source
  valid : ∀ component ∈ planned.destination.path, validateComponent component = none
  sameRoot : planned.source.rootId = planned.destination.rootId
  stable : planned.source.fingerprint.stableForApply = true

end Planned

/-! ## Folders -/

/-- The requests a directory is made for: the first one for each folder that does not exist. -/
def newDirectories (mapping : CaseMapping) (existing : Finset (RootId × String)) :
    Finset (RootId × String) → List FolderRequest → List FolderRequest
  | _, [] => []
  | seen, request :: requests =>
      let rest := newDirectories mapping existing (insert (request.key mapping) seen) requests
      if request.key mapping ∈ existing ∨ request.key mapping ∈ seen then rest else request :: rest

variable {mapping : CaseMapping} {existing seen : Finset (RootId × String)}
  {requests : List FolderRequest}

theorem mem_newDirectories {request : FolderRequest}
    (h : request ∈ newDirectories mapping existing seen requests) :
    request ∈ requests ∧ request.key mapping ∉ existing ∧ request.key mapping ∉ seen := by
  induction requests generalizing seen with
  | nil => exact absurd h List.not_mem_nil
  | cons first requests ih =>
      simp only [newDirectories] at h
      split at h
      · obtain ⟨hmem, hexists, hseen⟩ := ih h
        exact ⟨List.mem_cons_of_mem _ hmem, hexists, fun hs => hseen (Finset.mem_insert_of_mem hs)⟩
      · rename_i hnew
        rw [not_or] at hnew
        rcases List.mem_cons.1 h with rfl | h
        · exact ⟨List.mem_cons_self .., hnew⟩
        · obtain ⟨hmem, hexists, hseen⟩ := ih h
          exact ⟨List.mem_cons_of_mem _ hmem, hexists,
            fun hs => hseen (Finset.mem_insert_of_mem hs)⟩

/-- A folder that neither exists nor was seen is made. -/
theorem exists_newDirectory {request : FolderRequest} (h : request ∈ requests)
    (hexists : request.key mapping ∉ existing) (hseen : request.key mapping ∉ seen) :
    ∃ made ∈ newDirectories mapping existing seen requests,
      made.key mapping = request.key mapping := by
  induction requests generalizing seen with
  | nil => exact absurd h List.not_mem_nil
  | cons first requests ih =>
      simp only [newDirectories]
      by_cases hfirst : first.key mapping = request.key mapping
      · rw [if_neg (by rw [hfirst]; exact not_or.2 ⟨hexists, hseen⟩)]
        exact ⟨first, List.mem_cons_self .., hfirst⟩
      · have hmem : request ∈ requests :=
          (List.mem_cons.1 h).resolve_left fun heq => hfirst (heq ▸ rfl)
        have hinsert : request.key mapping ∉ insert (first.key mapping) seen := fun hs =>
          (Finset.mem_insert.1 hs).elim (fun heq => hfirst heq.symm) hseen
        obtain ⟨made, hmade, hkey⟩ := ih hmem hinsert
        split
        · exact ⟨made, hmade, hkey⟩
        · exact ⟨made, List.mem_cons_of_mem _ hmade, hkey⟩

theorem newDirectories_append (first second : List FolderRequest) :
    newDirectories mapping existing seen (first ++ second)
      = newDirectories mapping existing seen first
        ++ newDirectories mapping existing (seen ∪ (first.map (·.key mapping)).toFinset)
          second := by
  induction first generalizing seen with
  | nil => simp [newDirectories]
  | cons request first ih =>
      simp only [List.cons_append, newDirectories, ih, List.map_cons, List.toFinset_cons,
        Finset.insert_union, Finset.union_insert]
      split <;> rfl

/-! ## One item -/

variable {vfs : VirtualFileSystem} {files : List SimulationFile} {state next : SimulationState}
  {item : ProposalItem}

private theorem planDirectory_request (request : FolderRequest) (state : SimulationState) :
    SimulationState.planDirectory vfs mapping request.rootId request.encoding state request.folder
      = { state with
          plannedDirectories := insert (request.key mapping) state.plannedDirectories
          directories :=
            if request.key mapping ∈ vfs.existingDirectories
                ∨ request.key mapping ∈ state.plannedDirectories then state.directories
            else state.directories ++ [request.directory] } := rfl

/-- Folders are planned by going through the requests. -/
theorem planDirectory_foldl (requests : List FolderRequest) (state : SimulationState) :
    requests.foldl (fun state request => state.planDirectory vfs mapping request.rootId
        request.encoding request.folder) state
      = { state with
          plannedDirectories := state.plannedDirectories
            ∪ (requests.map (·.key mapping)).toFinset
          directories := state.directories
            ++ (newDirectories mapping vfs.existingDirectories state.plannedDirectories
              requests).map FolderRequest.directory } := by
  induction requests generalizing state with
  | nil => simp [newDirectories]
  | cons request requests ih =>
      rw [List.foldl_cons, ih, planDirectory_request]
      simp only [List.map_cons, newDirectories, List.toFinset_cons, Finset.insert_union,
        Finset.union_insert, SimulationState.mk.injEq, true_and, and_true]
      split
      · rfl
      · rw [List.map_cons, List.append_assoc]
        rfl

/-- What planning the move of an item does. -/
structure Plans (vfs : VirtualFileSystem) (mapping : CaseMapping) (state : SimulationState)
    (planned : Planned) (next : SimulationState) : Prop where
  free : planned.key mapping ∉ state.occupied
  occupied : next.occupied = insert (planned.key mapping) state.occupied
  moves : next.moves = state.moves ++ [planned.move]
  seen : next.plannedDirectories
    = state.plannedDirectories ∪ (planned.requests.map (·.key mapping)).toFinset
  directories : next.directories = state.directories
    ++ (newDirectories mapping vfs.existingDirectories state.plannedDirectories
      planned.requests).map FolderRequest.directory

private theorem planMove_plans {planned : Planned} {inserted : SimulationState}
    (hfree : planned.key mapping ∉ state.occupied)
    (hoccupied : inserted.occupied = insert (planned.key mapping) state.occupied)
    (hmoves : inserted.moves = state.moves)
    (hseen : inserted.plannedDirectories = state.plannedDirectories)
    (hdirectories : inserted.directories = state.directories) :
    Plans vfs mapping state planned
        (inserted.planMove vfs mapping planned.item planned.destination planned.source)
      ∧ (inserted.planMove vfs mapping planned.item planned.destination planned.source).conflicts
        = inserted.conflicts := by
  have hfold := @planDirectory_foldl mapping vfs planned.requests inserted
  rw [Planned.requests, List.foldl_map] at hfold
  simp only [SimulationState.planMove]
  rw [show (folderPrefixes planned.destination.folderComponents).foldl
    (SimulationState.planDirectory vfs mapping planned.destination.rootId
      planned.source.sourcePath.encoding) inserted = _ from hfold]
  exact ⟨⟨hfree, hoccupied, by rw [← hmoves]; rfl, by rw [← hseen]; rfl,
    by rw [← hdirectories, ← hseen]; rfl⟩, rfl⟩

private theorem hasBlockers_note (conflicts : List SimulationConflict)
    (conflict : SimulationConflict) :
    hasBlockers (conflicts ++ [conflict])
      = (hasBlockers conflicts || decide (conflict.severity = .blocker)) := by
  simp [hasBlockers]

private theorem transferProblem_eq_none {source : SimulationFile} {rootId : RootId}
    (h : transferProblem source rootId = none) :
    source.rootId = rootId ∧ source.fingerprint.stableForApply = true := by
  simp only [transferProblem] at h
  split at h
  · exact nomatch h
  · rename_i hroot
    split at h
    · exact nomatch h
    · split at h
      · exact nomatch h
      · split at h
        · exact nomatch h
        · rename_i hstable
          exact ⟨not_not.1 hroot, not_not.1 hstable⟩

/-- The item is blocked: nothing is planned for it. -/
structure Blocks (state next : SimulationState) : Prop where
  blocked : hasBlockers next.conflicts = true
  moves : next.moves = state.moves
  seen : next.plannedDirectories = state.plannedDirectories
  directories : next.directories = state.directories

private theorem noteConflict_blocks {itemId : ProposalItemId} {reason : ReviewReason}
    {message : String} {occupied : Finset (RootId × String)} :
    Blocks state ({ state with occupied := occupied }.noteConflict itemId reason .blocker
      message) where
  blocked := by
    rw [SimulationState.noteConflict, hasBlockers_note]
    simp
  moves := rfl
  seen := rfl
  directories := rfl

/-- An item wants no place, is blocked, or gets its move. -/
theorem simulateItem_cases (h : simulateItem vfs mapping files state item = .ok next) :
    (item.planned? = none ∧ next = state) ∨ Blocks state next
      ∨ ∃ planned : Planned, planned.item = item ∧ planned.Found files
        ∧ Plans vfs mapping state planned next
        ∧ hasBlockers next.conflicts = hasBlockers state.conflicts := by
  unfold simulateItem at h
  by_cases hrejected : item.reviewState = .rejected
  · rw [if_pos hrejected] at h
    obtain rfl := Except.ok.inj h
    exact .inl ⟨if_pos hrejected, rfl⟩
  rw [if_neg hrejected] at h
  cases hsource : snapshotFile files item.id with
  | none =>
      rw [hsource] at h
      exact nomatch h
  | some source =>
      simp only [hsource] at h
      by_cases hblocked : item.reviewState = .blocked ∨ item.reviewState = .stale
      · rw [if_pos hblocked] at h
        obtain rfl := Except.ok.inj h
        exact .inr (.inl noteConflict_blocks)
      rw [if_neg hblocked] at h
      cases hdestination : item.action.destination? with
      | none =>
          rw [hdestination] at h
          obtain rfl := Except.ok.inj h
          exact .inl ⟨by rw [ProposalItem.planned?, if_neg hrejected, hdestination], rfl⟩
      | some destination =>
          simp only [hdestination] at h
          cases hvalid : destination.path.findSome? validateComponent with
          | some reason =>
              simp only [hvalid] at h
              obtain rfl := Except.ok.inj h
              exact .inr (.inl noteConflict_blocks)
          | none =>
              simp only [hvalid] at h
              split at h
              · obtain rfl := Except.ok.inj h
                exact .inr (.inl noteConflict_blocks)
              split at h
              · obtain rfl := Except.ok.inj h
                exact .inr (.inl noteConflict_blocks)
              rename_i hfree
              cases htransfer : transferProblem source destination.rootId with
              | some problem =>
                  simp only [htransfer] at h
                  obtain rfl := Except.ok.inj h
                  exact .inr (.inl noteConflict_blocks)
              | none =>
                  simp only [htransfer] at h
                  obtain rfl := Except.ok.inj h
                  obtain ⟨hroot, hstable⟩ := transferProblem_eq_none htransfer
                  let planned : Planned := { item, destination, source }
                  generalize hinserted : (if item.reviewState = .toReview then _ else _) = inserted
                  have hsame : inserted.occupied = insert (planned.key mapping) state.occupied
                      ∧ inserted.moves = state.moves
                      ∧ inserted.plannedDirectories = state.plannedDirectories
                      ∧ inserted.directories = state.directories
                      ∧ hasBlockers inserted.conflicts = hasBlockers state.conflicts := by
                    rw [← hinserted]
                    split
                    · refine ⟨rfl, rfl, rfl, rfl, ?_⟩
                      rw [SimulationState.noteConflict, hasBlockers_note]
                      simp
                    · exact ⟨rfl, rfl, rfl, rfl, rfl⟩
                  obtain ⟨hplans, hconflicts⟩ : Plans vfs mapping state planned _ ∧ _ :=
                    planMove_plans hfree hsame.1 hsame.2.1 hsame.2.2.1 hsame.2.2.2.1
                  refine .inr (.inr ⟨planned, rfl, ⟨?_, hsource, ?_, hroot, hstable⟩, hplans, ?_⟩)
                  · rw [ProposalItem.planned?, if_neg hrejected]
                    exact hdestination
                  · exact List.findSome?_eq_none_iff.1 hvalid
                  · rw [hconflicts, hsame.2.2.2.2]

end Zemo.Simulation
