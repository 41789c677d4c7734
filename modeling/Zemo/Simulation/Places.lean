import Zemo.Lib.Pointwise
import Zemo.Persistence.Prepared
import Zemo.Simulation.Outcome

set_option autoImplicit false

/-! # Places of a plan

Where the paths of a plan lead: they are looked up below their roots, by their lowercased form. -/

namespace Zemo.Simulation

/-- A path below a root, as it is looked up. -/
def place (mapping : CaseMapping) (rootId : RootId) (path : RelPath) : RootId × PathKey :=
  (rootId, pathKey mapping.lower path)

/-! ## Keys of paths -/

variable {mapping : CaseMapping} {path other : RelPath}

theorem joinComponents_cons_cons (first second : String) (rest : List String) :
    joinComponents (first :: second :: rest)
      = first ++ "\\" ++ joinComponents (second :: rest) := by
  rw [joinComponents, String.intercalate_cons_cons]
  rfl

theorem lower_joinComponents (hne : path ≠ []) :
    caseKey mapping (joinComponents path) = joinComponents (pathKey mapping.lower path) := by
  induction path with
  | nil => exact absurd rfl hne
  | cons first rest ih =>
      cases rest with
      | nil => simp [caseKey, joinComponents, pathKey]
      | cons second rest =>
          rw [joinComponents_cons_cons, caseKey, mapping.lower_backslash]
          rw [show mapping.lower (joinComponents (second :: rest)) = _ from
            ih (List.cons_ne_nil _ _)]
          exact (joinComponents_cons_cons _ _ _).symm

/-- A path whose names have no backslash. -/
def Separated (path : RelPath) : Prop := path ≠ [] ∧ ∀ name ∈ path, '\\' ∉ name.toList

theorem joinComponents_inj (hpath : Separated path) (hother : Separated other)
    (h : joinComponents path = joinComponents other) : path = other := by
  have hlists := congrArg (fun text : String => text.toList.splitOn '\\') h
  simp only [joinComponents, String.toList_intercalate, show "\\".toList = ['\\'] from rfl]
    at hlists
  rw [List.splitOn_intercalate, List.splitOn_intercalate] at hlists
  · exact List.map_injective_iff.2 (fun _ _ => String.toList_inj.1) hlists
  · simpa using hother.2
  · simpa using hother.1
  · simpa using hpath.2
  · simpa using hpath.1

theorem Separated.lower (h : Separated path) : Separated (pathKey mapping.lower path) := by
  refine ⟨by simpa [pathKey] using h.1, fun name hname => ?_⟩
  obtain ⟨original, horiginal, rfl⟩ := List.mem_map.1 hname
  exact mapping.lower_name original (h.2 original horiginal)

/-- Paths have one key as texts when they have one key as places. -/
theorem caseKey_inj (hpath : Separated path) (hother : Separated other) :
    caseKey mapping (joinComponents path) = caseKey mapping (joinComponents other)
      ↔ pathKey mapping.lower path = pathKey mapping.lower other := by
  rw [lower_joinComponents hpath.1, lower_joinComponents hother.1]
  exact ⟨joinComponents_inj hpath.lower hother.lower, congrArg _⟩

/-- A component that is accepted is a name that is read as it was written. -/
theorem plainName_of_valid {component : String} (h : validateComponent component = none) :
    PlainName component := by
  unfold validateComponent at h
  dsimp only at h
  split at h
  · exact nomatch h
  · rename_i hbad
    simp only [not_or, List.any_eq_true, not_exists, not_and, Bool.or_eq_true, not_or,
      decide_eq_true_eq] at hbad
    obtain ⟨hempty, hdot, hdots, -, -, hchars, -⟩ := hbad
    refine ⟨fun heq => hempty (heq ▸ rfl), hdot, hdots, fun hc => ?_, fun hc => ?_, fun hc => ?_⟩
    all_goals exact absurd (by decide) (hchars _ hc).2

variable {files : List SimulationFile} {plans : List Planned}

/-! ## What is asked for -/

/-- A path of a plan, as the place it is looked up at. -/
def nativePlace (mapping : CaseMapping) (rootId : RootId) (path : NativePath) :
    Option (RootId × PathKey) :=
  (resolveWithinRoot path).toOption.map (place mapping rootId)

def DestinationIntent.place (mapping : CaseMapping) (destination : DestinationIntent) :
    RootId × PathKey :=
  Simulation.place mapping destination.rootId destination.path

/-! ## What was planned -/

/-- The directories that are made. -/
def madeDirectories (mapping : CaseMapping) (vfs : VirtualFileSystem) (plans : List Planned) :
    List FolderRequest :=
  newDirectories mapping vfs.existingDirectories ∅ (plans.flatMap (·.requests))

namespace Planned

def place (mapping : CaseMapping) (planned : Planned) : RootId × PathKey :=
  planned.destination.place mapping

theorem Found.plain {planned : Planned} (h : planned.Found files) :
    ∀ name ∈ planned.destination.path, PlainName name :=
  fun name hname => plainName_of_valid (h.valid name hname)

theorem Found.separated {planned : Planned} (h : planned.Found files) :
    Separated planned.destination.path :=
  ⟨by simp [DestinationIntent.path], fun name hname => (h.plain name hname).backslash⟩

theorem Found.nativePlace_move {planned : Planned} (h : planned.Found files) :
    nativePlace mapping planned.move.destinationRootId planned.move.destinationPath
      = some (planned.place mapping) := by
  rw [nativePlace, move, resolveWithinRoot_encode h.plain h.separated.1]
  rfl

end Planned

theorem mem_folderPrefixes {folders : List String} {folder : RelPath} :
    folder ∈ folderPrefixes folders ↔ folder <+: folders ∧ folder ≠ [] := by
  simp only [folderPrefixes, List.mem_map, List.mem_range]
  constructor
  · rintro ⟨i, hi, rfl⟩
    refine ⟨List.take_prefix _ _, ?_⟩
    simp only [ne_eq, List.take_eq_nil_iff, Nat.succ_ne_zero, false_or]
    rintro rfl
    exact Nat.not_lt_zero _ hi
  · rintro ⟨hstart, hne⟩
    have hlength := List.length_pos_of_ne_nil hne
    refine ⟨folder.length - 1, by have := hstart.length_le; omega, ?_⟩
    rw [Nat.sub_add_cancel hlength]
    exact (List.prefix_iff_eq_take.1 hstart).symm

/-- The folders on the way to a destination are asked for. -/
theorem exists_request {planned : Planned} (hplanned : planned ∈ plans) {folder : RelPath}
    (hfolder : folder ∈ folderPrefixes planned.destination.folderComponents) :
    ∃ request ∈ plans.flatMap (·.requests),
      request.rootId = planned.destination.rootId ∧ request.folder = folder :=
  ⟨_, List.mem_flatMap.2 ⟨planned, hplanned, List.mem_map_of_mem hfolder⟩, rfl, rfl⟩

/-- A request of a plan is for a folder on the way to its destination. -/
theorem planned_of_request (hfound : ∀ planned ∈ plans, planned.Found files)
    {request : FolderRequest} (hrequest : request ∈ plans.flatMap (·.requests)) :
    ∃ planned ∈ plans, request.rootId = planned.destination.rootId
      ∧ request.folder ∈ folderPrefixes planned.destination.folderComponents
      ∧ (∀ name ∈ request.folder, PlainName name) ∧ Separated request.folder := by
  obtain ⟨planned, hplanned, hmem⟩ := List.mem_flatMap.1 hrequest
  obtain ⟨folder, hfolder, rfl⟩ := List.mem_map.1 hmem
  obtain ⟨hstart, hne⟩ := mem_folderPrefixes.1 hfolder
  have hplain : ∀ name ∈ folder, PlainName name := fun name hname =>
    (hfound planned hplanned).plain name (List.mem_append_left _ (hstart.subset hname))
  exact ⟨planned, hplanned, rfl, hfolder, hplain, hne, fun name hname => (hplain name hname).backslash⟩

/-- Where a request asks for its folder. -/
def FolderRequest.place (mapping : CaseMapping) (request : FolderRequest) : RootId × PathKey :=
  Simulation.place mapping request.rootId request.folder

/-! ## A file and a folder of its name -/

/-- The lowercasing of ASCII letters. -/
def asciiCase : CaseMapping where
  lower value := String.ofList (value.toList.map Char.toLower)
  lower_backslash a b := by
    rw [String.toList_append, String.toList_append, List.map_append, List.map_append,
      String.ofList_append, String.ofList_append]
    rfl
  lower_name a h hmem := by
    rw [String.toList_ofList] at hmem
    obtain ⟨c, hc, hlower⟩ := List.mem_map.1 hmem
    unfold Char.toLower at hlower
    split at hlower
    · rename_i hupper
      have hvalue : (c.val + ('a'.val - 'A'.val)).toNat = 92 :=
        congrArg (fun c => c.val.toNat) hlower
      have hfirst : 65 ≤ c.val.toNat := UInt32.le_iff_toNat_le.1 hupper.1
      have hlast : c.val.toNat ≤ 90 := UInt32.le_iff_toNat_le.1 hupper.2
      rw [UInt32.toNat_add, show ('a'.val - 'A'.val).toNat = 32 from rfl] at hvalue
      omega
    · exact h (hlower ▸ hc)

end Zemo.Simulation
