import Zemo.Organizer.MachineNames

set_option autoImplicit false

/-! # Fitted paths

A path that is too long loses the ends of its folders, from the last one on, and then of its file
name. Which folders are cut can be told from the lengths alone, and a path that is returned as valid
is one the user could have given exactly when no cut leaves something that is no name. -/

namespace Zemo

open Organizer Checked

namespace VirtualPathPolicy

variable (policy : VirtualPathPolicy)

/-! ## What is asked of a fitted path -/

/-- The folders and the name are ones the user may give, and the path is not too long. -/
structure FittedLawful (path : FittedPath) : Prop where
  destination : policy.validateUserDestination path.destination = .ok ()
  filename : policy.validateUserFilename path.name = .ok ()
  length : pathLengthUtf16 path.destination path.name ≤ policy.maximumPathUtf16

/-- The folders before any of them is cut for the path. -/
def safeSegments (destination : List String) : List String :=
  (destination.map fun segment => (policy.sanitizeMachineSegment segment).value).take
    policy.maximumDepth

/-- The folders with those from one on cut. -/
def cutFrom (start : Nat) (segments : List String) : List String :=
  segments.mapIdx fun index segment => if start ≤ index then truncateUtf16 segment 32 else segment

/-- The path is still too long when all folders behind this one are cut. -/
def Shortened (segments : List String) (name : String) (index : Nat) : Prop :=
  policy.maximumPathUtf16 < pathLengthUtf16 (cutFrom (index + 1) segments) name

instance (segments : List String) (name : String) (index : Nat) :
    Decidable (policy.Shortened segments name index) := Nat.decLt ..

/-- Where the folder at an index is cut. -/
def segmentLimit (segments : List String) (name : String) (index : Nat) : Nat :=
  if policy.Shortened segments name index then min 32 policy.maximumSegmentUtf16
  else policy.maximumSegmentUtf16

/-- The units that are left for the name when all folders are cut. -/
def remainingUnits (segments : List String) : Nat :=
  max 16 (policy.maximumPathUtf16 - (((cutFrom 0 segments).map utf16Count).sum + segments.length))

/-- Every cut of a path keeps names. -/
structure GoodCuts (destination : List String) (filename : String) : Prop where
  segments : ∀ index segment, (destination.take policy.maximumDepth)[index]? = some segment →
    GoodCut isDropped (policy.segmentLimit (policy.safeSegments destination)
      (policy.sanitizeMachineFilename filename).value index) (cleanComponent segment)
  name : pathLengthUtf16 (cutFrom 0 (policy.safeSegments destination))
      (policy.sanitizeMachineFilename filename).value ≤ policy.maximumPathUtf16 →
    GoodFilenameCut isDropped policy.maximumFilenameUtf16 (String.ofList (cleanComponent filename))
  cutName : policy.maximumPathUtf16 < pathLengthUtf16 (cutFrom 0 (policy.safeSegments destination))
      (policy.sanitizeMachineFilename filename).value →
    GoodFilenameCut isDropped (policy.remainingUnits (policy.safeSegments destination))
      (policy.sanitizeMachineFilename filename).value

/-! ## Cutting folders -/

variable {policy} {segments : List String} {name : String} {index : Nat}

@[simp] theorem cutFrom_length (start : Nat) (segments : List String) :
    (cutFrom start segments).length = segments.length := by simp [cutFrom]

theorem utf16Count_truncateUtf16_le (value : String) (limit : Nat) :
    utf16Count (truncateUtf16 value limit) ≤ utf16Count value := by
  rw [utf16Count_eq, utf16Count_eq, truncateUtf16, String.toList_ofList]
  exact utf16Length_le_of_begins (beginning_truncateChars _ _).begins

theorem getElem?_cutFrom (start : Nat) (segments : List String) (index : Nat) :
    (cutFrom start segments)[index]? = segments[index]?.map fun segment =>
      if start ≤ index then truncateUtf16 segment 32 else segment := by
  rw [cutFrom, List.getElem?_mapIdx]

theorem cutFrom_of_length_le {start : Nat} (h : segments.length ≤ start) :
    cutFrom start segments = segments := by
  refine List.ext_getElem? fun index => ?_
  rw [getElem?_cutFrom]
  cases hget : segments[index]? with
  | none => rfl
  | some segment =>
      have hindex := (List.getElem?_eq_some_iff.1 hget).1
      rw [Option.map_some, if_neg (by omega)]

theorem cutFrom_cons (start : Nat) (segment : String) (rest : List String) :
    cutFrom start (segment :: rest) =
      (if start = 0 then truncateUtf16 segment 32 else segment) :: cutFrom (start - 1) rest := by
  rw [cutFrom, List.mapIdx_cons, cutFrom]
  simp only [Nat.le_zero, Nat.sub_le_iff_le_add]

/-- The more folders are cut, the shorter the path. -/
theorem pathLengthUtf16_cutFrom_mono {first second : Nat} (h : first ≤ second) :
    pathLengthUtf16 (cutFrom first segments) name ≤
      pathLengthUtf16 (cutFrom second segments) name := by
  have hsum : ((cutFrom first segments).map utf16Count).sum ≤
      ((cutFrom second segments).map utf16Count).sum := by
    induction segments generalizing first second with
    | nil => exact Nat.le_refl _
    | cons segment rest ih =>
        have hrest := @ih (first - 1) (second - 1) (by omega)
        have hle := utf16Count_truncateUtf16_le segment 32
        rw [cutFrom_cons, cutFrom_cons, List.map_cons, List.map_cons, List.sum_cons, List.sum_cons]
        by_cases hfirst : first = 0
        · rw [if_pos hfirst]
          split
          · omega
          · omega
        · rw [if_neg hfirst, if_neg (by omega)]
          omega
  rw [pathLengthUtf16, pathLengthUtf16, cutFrom_length, cutFrom_length]
  omega

theorem cutFrom_set (h : index < segments.length) :
    (cutFrom (index + 1) segments).set index
      (truncateUtf16 ((cutFrom (index + 1) segments).getD index "") 32) =
      cutFrom index segments := by
  refine List.ext_getElem? fun other => ?_
  have hget : (cutFrom (index + 1) segments).getD index "" = segments[index] := by
    rw [List.getD_eq_getElem?_getD, getElem?_cutFrom, List.getElem?_eq_getElem h, Option.map_some,
      if_neg (by omega), Option.getD_some]
  rw [hget, List.getElem?_set, cutFrom_length, getElem?_cutFrom, getElem?_cutFrom]
  by_cases hother : index = other
  · subst hother
    rw [if_pos rfl, if_pos h, List.getElem?_eq_getElem h, Option.map_some, if_pos (Nat.le_refl _)]
  · rw [if_neg hother]
    have hle : index + 1 ≤ other ↔ index ≤ other := by omega
    simp only [hle]

/-- The folders cut for the path: those from one on, which is the first or makes the path fit. -/
structure CutAt (policy : VirtualPathPolicy) (segments : List String) (name : String)
    (bound start : Nat) : Prop where
  le : start ≤ bound
  fits : start ≠ 0 → pathLengthUtf16 (cutFrom start segments) name ≤ policy.maximumPathUtf16
  shortened : ∀ index, start ≤ index → index < bound → policy.Shortened segments name index

theorem shortenSegments_cutAt {bound : Nat} (h : bound ≤ segments.length) :
    ∃ start, CutAt policy segments name bound start ∧
      policy.shortenSegments name (cutFrom bound segments) bound = cutFrom start segments := by
  induction bound with
  | zero => exact ⟨0, ⟨Nat.le_refl _, fun h => absurd rfl h, fun _ _ h => by omega⟩, rfl⟩
  | succ bound ih =>
      rw [shortenSegments]
      split
      · rename_i hfits
        exact ⟨bound + 1, ⟨Nat.le_refl _, fun _ => hfits, fun _ _ _ => by omega⟩, rfl⟩
      · rename_i hlong
        obtain ⟨start, hcut, hresult⟩ := ih (Nat.le_of_succ_le h)
        rw [cutFrom_set h]
        refine ⟨start, ⟨Nat.le_succ_of_le hcut.le, hcut.fits, fun index hstart hindex => ?_⟩,
          hresult⟩
        by_cases hlast : index = bound
        · subst hlast
          exact Nat.lt_of_not_le hlong
        · exact hcut.shortened index hstart (by omega)

/-- The folders cut are those for which the path is too long. -/
theorem CutAt.shortened_iff {start : Nat} (h : CutAt policy segments name segments.length start)
    (hindex : index < segments.length) : policy.Shortened segments name index ↔ start ≤ index := by
  refine ⟨fun hshortened => ?_, fun hstart => h.shortened index hstart hindex⟩
  by_contra hbefore
  have hfits := h.fits (by omega)
  have hmono := @pathLengthUtf16_cutFrom_mono segments name (index + 1) start (by omega)
  exact absurd hshortened (Nat.not_lt_of_le (hmono.trans hfits))

/-- The path is too long when all folders are cut exactly when it is after the cut. -/
theorem CutAt.tooLong_iff {bound start : Nat} (h : CutAt policy segments name bound start) :
    policy.maximumPathUtf16 < pathLengthUtf16 (cutFrom start segments) name ↔
      start = 0 ∧ policy.maximumPathUtf16 < pathLengthUtf16 (cutFrom 0 segments) name := by
  by_cases hstart : start = 0
  · subst hstart
    simp
  · have hfits := h.fits hstart
    simp only [hstart, false_and, iff_false]
    omega

/-! ## The fitted path -/

section Fitted

variable (policy) (destination : List String) (filename : String)

/-- The folders and the name of a fitted path. -/
structure FittedAt (start : Nat) : Prop where
  cut : CutAt policy (policy.safeSegments destination)
    (policy.sanitizeMachineFilename filename).value (policy.safeSegments destination).length start
  folders : (policy.fitMachinePath destination filename).destination =
    cutFrom start (policy.safeSegments destination)
  named : (policy.fitMachinePath destination filename).name =
    if policy.maximumPathUtf16 < pathLengthUtf16 (cutFrom 0 (policy.safeSegments destination))
        (policy.sanitizeMachineFilename filename).value then
      truncateFilenamePreservingExtension (policy.sanitizeMachineFilename filename).value
        (policy.remainingUnits (policy.safeSegments destination))
    else (policy.sanitizeMachineFilename filename).value

theorem fitMachinePath_fittedAt : ∃ start, FittedAt policy destination filename start := by
  have hsafe : policy.safeSegments destination =
      ((destination.map policy.sanitizeMachineSegment).map (·.value)).take policy.maximumDepth := by
    rw [safeSegments, List.map_map]
    rfl
  obtain ⟨start, hcut, hresult⟩ := @shortenSegments_cutAt policy (policy.safeSegments destination)
    (policy.sanitizeMachineFilename filename).value _ (Nat.le_refl _)
  rw [cutFrom_of_length_le (Nat.le_refl _)] at hresult
  refine ⟨start, hcut, ?_, ?_⟩
  · rw [← hresult, hsafe]
    rfl
  · have hname : (policy.fitMachinePath destination filename).name =
        if policy.maximumPathUtf16 < pathLengthUtf16
            (cutFrom start (policy.safeSegments destination))
            (policy.sanitizeMachineFilename filename).value then
          truncateFilenamePreservingExtension (policy.sanitizeMachineFilename filename).value
            (max 16 (policy.maximumPathUtf16 -
              (((cutFrom start (policy.safeSegments destination)).map utf16Count).sum +
                (cutFrom start (policy.safeSegments destination)).length)))
        else (policy.sanitizeMachineFilename filename).value := by
      rw [← hresult, hsafe]
      simp only [fitMachinePath, decide_eq_true_eq]
    rw [hname]
    by_cases hlong : policy.maximumPathUtf16 < pathLengthUtf16
        (cutFrom start (policy.safeSegments destination))
        (policy.sanitizeMachineFilename filename).value
    · obtain ⟨rfl, -⟩ := hcut.tooLong_iff.1 hlong
      rw [if_pos hlong, if_pos hlong, remainingUnits, cutFrom_length]
    · rw [if_neg hlong, if_neg]
      intro hall
      have hmono := @pathLengthUtf16_cutFrom_mono (policy.safeSegments destination)
        (policy.sanitizeMachineFilename filename).value 0 start (Nat.zero_le _)
      omega

variable {destination filename}

/-- The folder at a place is cut where its limit is. -/
theorem FittedAt.getElem? {start : Nat} (h : FittedAt policy destination filename start)
    {segment : String}
    (hsegment : (destination.take policy.maximumDepth)[index]? = some segment) :
    (policy.fitMachinePath destination filename).destination[index]? =
      some (String.ofList (truncateChars (policy.segmentLimit (policy.safeSegments destination)
        (policy.sanitizeMachineFilename filename).value index) (cleanComponent segment))) := by
  have hsafe : (policy.safeSegments destination)[index]? = some (String.ofList
      (truncateChars policy.maximumSegmentUtf16 (cleanComponent segment))) := by
    rw [safeSegments, ← List.map_take, List.getElem?_map, hsegment, Option.map_some,
      sanitizeMachineSegment, sanitizeComponent_eq, cutName, if_neg Bool.false_ne_true,
      truncateUtf16, String.toList_ofList]
  have hindex := (List.getElem?_eq_some_iff.1 hsafe).1
  rw [h.folders, getElem?_cutFrom, hsafe, Option.map_some, segmentLimit]
  simp only [h.cut.shortened_iff hindex]
  split
  · rw [truncateUtf16, String.toList_ofList, truncateChars_truncateChars]
  · rfl

/-- The folders are ones the user may give exactly when their cuts keep names. -/
theorem FittedAt.destination_iff {start : Nat} (h : FittedAt policy destination filename start) :
    policy.validateUserDestination (policy.fitMachinePath destination filename).destination =
      .ok () ↔ ∀ index segment, (destination.take policy.maximumDepth)[index]? = some segment →
        GoodCut isDropped (policy.segmentLimit (policy.safeSegments destination)
          (policy.sanitizeMachineFilename filename).value index) (cleanComponent segment) := by
  have hdepth : (policy.fitMachinePath destination filename).destination.length ≤
      policy.maximumDepth := by
    rw [fitMachinePath_length]
    exact Nat.min_le_left ..
  have hvalid (index : Nat) (segment : String) : validateComponent (String.ofList (truncateChars
      (policy.segmentLimit (policy.safeSegments destination)
        (policy.sanitizeMachineFilename filename).value index) (cleanComponent segment)))
      policy.maximumSegmentUtf16 = .ok () ↔
      GoodCut isDropped (policy.segmentLimit (policy.safeSegments destination)
        (policy.sanitizeMachineFilename filename).value index) (cleanComponent segment) := by
    obtain ⟨hbegins, hfits, -⟩ := beginning_truncateChars (cleanComponent segment)
      (policy.segmentLimit (policy.safeSegments destination)
        (policy.sanitizeMachineFilename filename).value index)
    have hlimit : policy.segmentLimit (policy.safeSegments destination)
        (policy.sanitizeMachineFilename filename).value index ≤ policy.maximumSegmentUtf16 := by
      rw [segmentLimit]
      split
      · exact Nat.min_le_right ..
      · exact Nat.le_refl _
    rw [validateComponent_iff, String.toList_ofList, goodCut_iff]
    · rw [String.toList_ofList]
      exact (cleanComponent_begun segment).of_begins hbegins
    · rw [utf16Count_eq, String.toList_ofList]
      exact hfits.trans hlimit
  rw [validateUserDestination, test_bind_eq_ok, require_eq_ok, forM_eq_ok]
  constructor
  · rintro ⟨-, hall⟩ index segment hsegment
    exact (hvalid index segment).1 (hall _ (List.mem_of_getElem? (h.getElem? policy hsegment)))
  · refine fun hgood => ⟨hdepth, fun value hvalue => ?_⟩
    obtain ⟨index, hindex, rfl⟩ := List.getElem_of_mem hvalue
    have htake : index < (destination.take policy.maximumDepth).length := by
      rw [fitMachinePath_length] at hindex
      rwa [List.length_take]
    have hget := h.getElem? policy (List.getElem?_eq_getElem htake)
    rw [List.getElem?_eq_getElem hindex] at hget
    rw [Option.some.inj hget]
    exact (hvalid index _).2 (hgood index _ (List.getElem?_eq_getElem htake))

theorem truncateFilename_le {value : String} (limit : Nat) (h : Begun value.toList) :
    utf16Count (truncateFilenamePreservingExtension value limit) ≤ utf16Count value := by
  by_cases hfits : utf16Count value ≤ limit
  · rw [truncateFilename_of_fits hfits]
  · exact (truncateFilename_cutTo h limit).fits.trans (Nat.le_of_lt (Nat.lt_of_not_le hfits))

/-- The name is one the user may give exactly when its cuts keep a name. -/
theorem FittedAt.filename_iff {start : Nat} (h : FittedAt policy destination filename start) :
    policy.validateUserFilename (policy.fitMachinePath destination filename).name = .ok () ↔
      (pathLengthUtf16 (cutFrom 0 (policy.safeSegments destination))
          (policy.sanitizeMachineFilename filename).value ≤ policy.maximumPathUtf16 →
        GoodFilenameCut isDropped policy.maximumFilenameUtf16
          (String.ofList (cleanComponent filename))) ∧
      (policy.maximumPathUtf16 < pathLengthUtf16 (cutFrom 0 (policy.safeSegments destination))
          (policy.sanitizeMachineFilename filename).value →
        GoodFilenameCut isDropped (policy.remainingUnits (policy.safeSegments destination))
          (policy.sanitizeMachineFilename filename).value) := by
  have hcut : CutTo policy.maximumFilenameUtf16 (policy.sanitizeMachineFilename filename).value :=
    sanitizeComponent_cutTo filename policy.maximumFilenameUtf16 true
  have hvalue : (policy.sanitizeMachineFilename filename).value =
      truncateFilenamePreservingExtension (String.ofList (cleanComponent filename))
        policy.maximumFilenameUtf16 := by
    rw [sanitizeMachineFilename, sanitizeComponent_eq, cutName, if_pos rfl]
  have hkeeps : KeepsName isDropped (policy.sanitizeMachineFilename filename).value.toList ↔
      GoodFilenameCut isDropped policy.maximumFilenameUtf16
        (String.ofList (cleanComponent filename)) := by
    rw [hvalue, keepsName_truncateFilename]
  rw [validateUserFilename, h.named]
  by_cases hlong : policy.maximumPathUtf16 < pathLengthUtf16
      (cutFrom 0 (policy.safeSegments destination)) (policy.sanitizeMachineFilename filename).value
  · have hbegun := truncateFilename_cutTo hcut.begun
      (policy.remainingUnits (policy.safeSegments destination))
    have hle := truncateFilename_le (policy.remainingUnits (policy.safeSegments destination))
      hcut.begun
    rw [if_pos hlong, validateComponent_iff hbegun.begun (hle.trans hcut.fits),
      keepsName_truncateFilename]
    exact ⟨fun hgood => ⟨fun hshort => absurd hlong (Nat.not_lt_of_le hshort), fun _ => hgood⟩,
      fun hgood => hgood.2 hlong⟩
  · rw [if_neg hlong, validateComponent_iff hcut.begun hcut.fits, hkeeps]
    exact ⟨fun hgood => ⟨fun _ => hgood, fun h => absurd h hlong⟩,
      fun hgood => hgood.1 (Nat.le_of_not_lt hlong)⟩

end Fitted

end VirtualPathPolicy

open VirtualPathPolicy

/-- **Machine names are names as far as the cuts allow.** The value of a sanitizer is a name that it
leaves alone exactly when the cut to its limit keeps a name that does not end in whitespace; and a
path that is returned as valid is one the user may give exactly when every cut of it keeps a name. -/
theorem machineNames_lawful_iff (policy : VirtualPathPolicy) :
    (∀ input, MachineNamed policy.maximumSegmentUtf16 false input ↔
      GoodCut isTrimmed policy.maximumSegmentUtf16 (cleanComponent input)) ∧
    (∀ input, MachineNamed policy.maximumFilenameUtf16 true input ↔
      GoodFilenameCut isTrimmed policy.maximumFilenameUtf16
        (String.ofList (cleanComponent input))) ∧
    (∀ destination filename, (policy.fitMachinePath destination filename).valid = true →
      (policy.FittedLawful (policy.fitMachinePath destination filename) ↔
        policy.GoodCuts destination filename)) := by
  refine ⟨fun input => machineNamed_segment_iff input _,
    fun input => machineNamed_filename_iff input _, fun destination filename hvalid => ?_⟩
  obtain ⟨start, hfitted⟩ := fitMachinePath_fittedAt policy destination filename
  have hlength : pathLengthUtf16 (policy.fitMachinePath destination filename).destination
      (policy.fitMachinePath destination filename).name ≤ policy.maximumPathUtf16 := by
    simpa [fitMachinePath] using hvalid
  constructor
  · rintro ⟨hdestination, hfilename, -⟩
    obtain ⟨hname, hcut⟩ := (hfitted.filename_iff policy).1 hfilename
    exact ⟨(hfitted.destination_iff policy).1 hdestination, hname, hcut⟩
  · rintro ⟨hsegments, hname, hcut⟩
    exact ⟨(hfitted.destination_iff policy).2 hsegments,
      (hfitted.filename_iff policy).2 ⟨hname, hcut⟩, hlength⟩

/-- A folder name of 81 characters is cut behind a space, also in a path returned as valid. -/
theorem cut_behind_space :
    validateComponent (({} : VirtualPathPolicy).sanitizeMachineSegment
      (String.ofList (List.replicate 79 'a' ++ [' ', 'b']))).value 80 = .error .invalidCharacter ∧
    (({} : VirtualPathPolicy).fitMachinePath
      [String.ofList (List.replicate 79 'a' ++ [' ', 'b'])] "name.pdf").valid = true := by
  decide +kernel

end Zemo
