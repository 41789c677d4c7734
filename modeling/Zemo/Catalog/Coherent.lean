import Mathlib.Data.List.Nodup
import Zemo.Catalog.Rows

set_option autoImplicit false

/-! # Coherent catalogs

What every scan and every missing path keeps, whatever was observed: a current identity belongs to
one file, a path has one current location, a file has at most one, and a file is present as long as
its identity is current. `Observed` says what storing one observation does to the rows. -/

namespace Zemo.Catalog

open Checked Versioned

/-- Locations of one path of a root, as the unique index compares them. -/
def SamePath (a b : LocationRow) : Prop :=
  a.rootId = b.rootId ∧ a.normalizedRelativePathNative = b.normalizedRelativePathNative

/-- The rows fit together. -/
structure Coherent (context : CatalogContext) (catalog : FileCatalog) : Prop where
  ids : (catalog.files.map (·.id)).Nodup
  known : ∀ row ∈ current catalog.identities, row.fileId ∈ catalog.files.map (·.id)
  sameFile : ∀ a ∈ current catalog.identities, ∀ b ∈ current catalog.identities,
    a.volumeId = b.volumeId → a.key = b.key → a.fileId = b.fileId
  sameKey : ∀ a ∈ current catalog.identities, ∀ b ∈ current catalog.identities,
    a.fileId = b.fileId → a.volumeId = b.volumeId ∧ a.key = b.key
  paths : (current catalog.locations).Pairwise (¬SamePath · ·)
  files : (current catalog.locations).Pairwise (·.fileId ≠ ·.fileId)
  identified : ∀ location ∈ current catalog.locations, ∃ row ∈ current catalog.identities,
    row.fileId = location.fileId
      ∧ ∃ caseSensitive, context.roots location.rootId = some (row.volumeId, caseSensitive)
  present : ∀ file ∈ catalog.files, file.lifecycleState = .present ↔
    ∃ row ∈ current catalog.identities, row.fileId = file.id

variable {context : CatalogContext} {catalog after : FileCatalog} {o : FileObservation}
  {volumeId : Nat} {caseSensitive : Bool} {fileId : FileId} {key normalized : List UInt8}

theorem Coherent.start (context : CatalogContext) : Coherent context {} where
  ids := List.nodup_nil
  known _ h := nomatch h
  sameFile _ h := nomatch h
  sameKey _ h := nomatch h
  paths := .nil
  files := .nil
  identified _ h := nomatch h
  present _ h := nomatch h

/-- A file has one location. -/
theorem Coherent.location_eq (h : Coherent context catalog) {a b : LocationRow}
    (ha : a ∈ current catalog.locations) (hb : b ∈ current catalog.locations)
    (hfile : a.fileId = b.fileId) : a = b :=
  List.inj_on_of_nodup_map (List.pairwise_map.2 h.files) ha hb hfile

/-! ## Holders -/

theorem holder_mem (h : catalog.holder volumeId key = some fileId) :
    ∃ row ∈ current catalog.identities,
      row.fileId = fileId ∧ row.volumeId = volumeId ∧ row.key = key := by
  obtain ⟨row, hfind, rfl⟩ := Option.map_eq_some_iff.1 h
  have hrow : row.volumeId = volumeId ∧ row.key = key := by
    simpa using List.find?_some hfind
  exact ⟨row, List.mem_of_find?_eq_some hfind, rfl, hrow⟩

theorem holder_none (h : catalog.holder volumeId key = none) {row : IdentityRow}
    (hrow : row ∈ current catalog.identities) (hvolume : row.volumeId = volumeId) :
    row.key ≠ key := by
  intro hkey
  have hfind := List.find?_eq_none.1 (Option.map_eq_none_iff.1 h) row hrow
  simp [hvolume, hkey] at hfind

theorem Coherent.holder_eq (h : Coherent context catalog) {row : IdentityRow}
    (hrow : row ∈ current catalog.identities) :
    catalog.holder row.volumeId row.key = some row.fileId := by
  cases hholder : catalog.holder row.volumeId row.key with
  | none => exact absurd rfl (holder_none hholder hrow rfl)
  | some fileId =>
      obtain ⟨other, hother, rfl, hvolume, hkey⟩ := holder_mem hholder
      rw [h.sameFile row hrow other hother hvolume.symm hkey.symm]

/-- The identities of the file of an observation are those that are observed. -/
theorem Coherent.fileOf_iff (h : Coherent context catalog)
    (hfresh : o.fileId ∉ catalog.files.map (·.id)) {row : IdentityRow}
    (hrow : row ∈ current catalog.identities) :
    row.fileId = catalog.fileOf volumeId o ↔ row.volumeId = volumeId ∧ row.key = o.objectKey := by
  unfold FileCatalog.fileOf
  cases hholder : catalog.holder volumeId o.objectKey with
  | some fileId =>
      obtain ⟨other, hother, rfl, rfl, hkey⟩ := holder_mem hholder
      rw [Option.getD_some, ← hkey]
      exact ⟨h.sameKey row hrow other hother, fun ⟨hv, hk⟩ => h.sameFile row hrow other hother hv hk⟩
  | none =>
      refine ⟨fun hfile => ?_, fun ⟨hv, hk⟩ => absurd hk (holder_none hholder hrow hv)⟩
      rw [Option.getD_none] at hfile
      exact absurd (hfile ▸ h.known row hrow) hfresh

/-! ## One observation -/

/-- The location is at the path of the observation. -/
def LocationRow.at (row : LocationRow) (o : FileObservation) (normalized : List UInt8) : Prop :=
  row.rootId = o.rootId ∧ row.normalizedRelativePathNative = normalized

/-- What storing an observation does to the rows. -/
structure Observed (context : CatalogContext) (o : FileObservation) (catalog after : FileCatalog)
    (volumeId : Nat) (caseSensitive : Bool) (normalized : List UInt8) : Prop where
  root : context.roots o.rootId = some (volumeId, caseSensitive)
  native : ∃ native, nativePathStorageBlob o.relativePath = .ok native
  key : normalizedNativePathStorageBlob context o.relativePath caseSensitive = .ok normalized
  files : after.files = (catalog.withPresent (catalog.fileOf volumeId o)).files
  identity : ∃ row ∈ current after.identities, row.fileId = catalog.fileOf volumeId o
  identitiesKept : ∀ row ∈ current catalog.identities, row ∈ current after.identities
  identities : ∀ row ∈ current after.identities, row ∈ current catalog.identities
    ∨ (row.fileId = catalog.fileOf volumeId o ∧ row.volumeId = volumeId ∧ row.key = o.objectKey)
  paths : (current catalog.locations).Pairwise (¬SamePath · ·) →
    (current after.locations).Pairwise (¬SamePath · ·)
  onePerFile : (current catalog.locations).Pairwise (·.fileId ≠ ·.fileId) →
    (current after.locations).Pairwise (·.fileId ≠ ·.fileId)
  located : ∃ location ∈ current after.locations,
    location.fileId = catalog.fileOf volumeId o ∧ location.at o normalized
  locationsKept : ∀ location ∈ current catalog.locations, ¬location.at o normalized →
    location.fileId ≠ catalog.fileOf volumeId o → location ∈ current after.locations
  locations : ∀ location ∈ current after.locations,
    (location ∈ current catalog.locations ∧
      (location.fileId = catalog.fileOf volumeId o ↔ location.at o normalized))
    ∨ (location.fileId = catalog.fileOf volumeId o ∧ location.at o normalized
      ∧ nativePathStorageBlob o.relativePath = .ok location.relativePathNative)

/-- The locations that are left when an observation has closed what its path and its file were. -/
theorem mem_closed {locations : List (Row ScanId LocationRow)} {location : LocationRow} :
    location ∈ current (close (fun row => row.fileId = fileId && (row.rootId ≠ o.rootId
        || row.normalizedRelativePathNative ≠ normalized)) o.scanId
      (close (fun row => row.rootId = o.rootId
        && row.normalizedRelativePathNative = normalized && row.fileId ≠ fileId) o.scanId locations))
      ↔ location ∈ current locations ∧ (location.fileId = fileId ↔ location.at o normalized) := by
  rw [mem_current_close, mem_current_close, and_assoc]
  refine and_congr_right fun _ => ?_
  by_cases hfile : location.fileId = fileId
  · simp [LocationRow.at, hfile]
  · by_cases hroot : location.rootId = o.rootId
    · simp [LocationRow.at, hfile, hroot]
    · simp [LocationRow.at, hfile, hroot]

theorem persistObservation_spec (h : persistObservation context o catalog = .ok after) :
    ∃ volumeId caseSensitive normalized,
      Observed context o catalog after volumeId caseSensitive normalized := by
  simp only [persistObservation, bind_eq_ok, orError_eq_ok, require_eq_ok] at h
  obtain ⟨⟨volumeId, caseSensitive⟩, hroot, native, hnative, normalized, hnormalized, -, hidentity,
    -, hlocated, hafter⟩ := h
  simp only [pure, Except.pure, Except.ok.injEq] at hafter
  subst hafter
  refine ⟨volumeId, caseSensitive, normalized, ?_⟩
  have hclosed : ∀ location, location ∈ current (close _ o.scanId (close _ o.scanId
      catalog.locations)) ↔ location ∈ current catalog.locations
        ∧ (location.fileId = catalog.fileOf volumeId o ↔ location.at o normalized) :=
    fun location => mem_closed
  -- a location that is not in conflict with the new one is at another path
  have hconflict : ∀ b : LocationRow, LocationRow.conflicts
      ⟨catalog.fileOf volumeId o, o.rootId, native, normalized⟩ b = false →
      ¬b.at o normalized := by
    intro b hb hat
    simp [LocationRow.conflicts, hat.1, hat.2] at hb
  refine
    { root := hroot
      native := ⟨native, hnative⟩
      key := hnormalized
      files := rfl
      identity := ?_
      identitiesKept := ?_
      identities := ?_
      paths := ?_
      onePerFile := ?_
      located := ?_
      locationsKept := ?_
      locations := ?_ }
  · obtain ⟨row, hrow, htest⟩ := List.any_eq_true.1 hidentity
    refine ⟨row, hrow, ?_⟩
    simp only [Bool.and_eq_true, decide_eq_true_eq] at htest
    exact htest.1.1
  · intro row hrow
    show row ∈ current (if o.objectKey = [] then _ else _)
    split
    · exact hrow
    · exact current_subset_insertOrIgnore hrow
  · intro row hrow
    change row ∈ current (if o.objectKey = [] then _ else _) at hrow
    split at hrow
    · exact .inl hrow
    · rcases mem_current_insertOrIgnore hrow with hrow | rfl
      · exact .inl hrow
      · exact .inr ⟨rfl, rfl, rfl⟩
  · intro hpaths
    show (current (if isRooted o.relativePath then _ else _)).Pairwise _
    split
    · exact pairwise_current_close (pairwise_current_close hpaths)
    · refine pairwise_insertOrIgnore (pairwise_current_close (pairwise_current_close hpaths)) ?_
      exact fun b _ hb hsame => hconflict b hb hsame
  · intro honly
    show (current (if isRooted o.relativePath then _ else _)).Pairwise _
    split
    · exact pairwise_current_close (pairwise_current_close honly)
    · refine pairwise_insertOrIgnore (pairwise_current_close (pairwise_current_close honly)) ?_
      exact fun b hmem hb hfile => hconflict b hb (((hclosed b).1 hmem).2.1 hfile)
  · obtain ⟨location, hlocation, htest⟩ := List.any_eq_true.1 hlocated
    refine ⟨location, hlocation, ?_⟩
    simp only [Bool.and_eq_true, decide_eq_true_eq] at htest
    exact ⟨htest.1.1, htest.1.2, htest.2⟩
  · intro location hlocation hat hfile
    have hmem := (hclosed location).2 ⟨hlocation, by simp [hat, hfile]⟩
    show location ∈ current (if isRooted o.relativePath then _ else _)
    split
    · exact hmem
    · exact current_subset_insertOrIgnore hmem
  · intro location hlocation
    change location ∈ current (if isRooted o.relativePath then _ else _) at hlocation
    split at hlocation
    · exact .inl ((hclosed location).1 hlocation)
    · rcases mem_current_insertOrIgnore hlocation with hlocation | rfl
      · exact .inl ((hclosed location).1 hlocation)
      · exact .inr ⟨rfl, ⟨rfl, rfl⟩, hnative⟩

/-! ## Files that are present -/

/-- The identifiers after a file is made present. -/
theorem withPresent_ids (catalog : FileCatalog) (fileId : FileId) :
    (catalog.withPresent fileId).files.map (·.id) =
      if fileId ∈ catalog.files.map (·.id) then catalog.files.map (·.id)
      else catalog.files.map (·.id) ++ [fileId] := by
  have hmap : ∀ files : List FileRow, (files.map fun file =>
      if file.id = fileId then { file with lifecycleState := LifecycleState.present } else file).map
        (·.id) = files.map (·.id) := by
    intro files
    rw [List.map_map]
    refine List.map_congr_left fun file _ => ?_
    by_cases hid : file.id = fileId <;> simp [hid]
  unfold FileCatalog.withPresent
  simp only [hmap]
  split <;> simp

theorem mem_withPresent_ids {id : FileId} :
    id ∈ (catalog.withPresent fileId).files.map (·.id) ↔
      id ∈ catalog.files.map (·.id) ∨ id = fileId := by
  rw [withPresent_ids]
  by_cases hknown : fileId ∈ catalog.files.map (·.id)
  · rw [if_pos hknown]
    exact ⟨.inl, fun h => h.elim (fun h => h) fun h => h ▸ hknown⟩
  · rw [if_neg hknown, List.mem_append, List.mem_singleton]

theorem withPresent_nodup (h : (catalog.files.map (·.id)).Nodup) :
    ((catalog.withPresent fileId).files.map (·.id)).Nodup := by
  rw [withPresent_ids]
  by_cases hknown : fileId ∈ catalog.files.map (·.id)
  · rwa [if_pos hknown]
  · rw [if_neg hknown, List.nodup_append]
    refine ⟨h, by simp, ?_⟩
    rintro id hid _ hnew rfl
    exact hknown (List.mem_singleton.1 hnew ▸ hid)

/-- The file is present, and the others are as they were. -/
theorem mem_withPresent {file : FileRow} (h : file ∈ (catalog.withPresent fileId).files) :
    (file.id = fileId ∧ file.lifecycleState = .present)
      ∨ (file.id ≠ fileId ∧ file ∈ catalog.files) := by
  obtain ⟨row, hrow, rfl⟩ := List.mem_map.1 h
  by_cases hid : row.id = fileId
  · rw [if_pos hid]
    exact .inl ⟨hid, rfl⟩
  · rw [if_neg hid]
    refine .inr ⟨hid, ?_⟩
    split at hrow
    · exact hrow
    · rcases List.mem_append.1 hrow with hrow | hrow
      · exact hrow
      · exact absurd (congrArg FileRow.id (List.mem_singleton.1 hrow)) hid

/-! ## Observations keep catalogs coherent -/

/-- The file of an observation holds its identity then. -/
theorem Observed.held (h : Observed context o catalog after volumeId caseSensitive normalized)
    (hc : Coherent context catalog) (hfresh : o.fileId ∉ catalog.files.map (·.id)) :
    ∃ row ∈ current after.identities, row.fileId = catalog.fileOf volumeId o
      ∧ row.volumeId = volumeId ∧ row.key = o.objectKey := by
  obtain ⟨row, hrow, hfile⟩ := h.identity
  rcases h.identities row hrow with hbefore | ⟨-, hvolume, hkey⟩
  · obtain ⟨hvolume, hkey⟩ := (hc.fileOf_iff hfresh hbefore).1 hfile
    exact ⟨row, hrow, hfile, hvolume, hkey⟩
  · exact ⟨row, hrow, hfile, hvolume, hkey⟩

/-- Also after the observation the identities of its file are those that are observed. -/
theorem Observed.fileOf_iff
    (h : Observed context o catalog after volumeId caseSensitive normalized)
    (hc : Coherent context catalog) (hfresh : o.fileId ∉ catalog.files.map (·.id))
    {row : IdentityRow} (hrow : row ∈ current after.identities) :
    row.fileId = catalog.fileOf volumeId o ↔ row.volumeId = volumeId ∧ row.key = o.objectKey := by
  rcases h.identities row hrow with hbefore | ⟨hfile, hvolume, hkey⟩
  · exact hc.fileOf_iff hfresh hbefore
  · exact ⟨fun _ => ⟨hvolume, hkey⟩, fun _ => hfile⟩

/-- A row of another file was there before. -/
theorem Observed.other (h : Observed context o catalog after volumeId caseSensitive normalized)
    {row : IdentityRow} (hrow : row ∈ current after.identities)
    (hfile : row.fileId ≠ catalog.fileOf volumeId o) : row ∈ current catalog.identities := by
  rcases h.identities row hrow with hbefore | ⟨hsame, -, -⟩
  · exact hbefore
  · exact absurd hsame hfile

theorem Observed.coherent (h : Observed context o catalog after volumeId caseSensitive normalized)
    (hc : Coherent context catalog) (hfresh : o.fileId ∉ catalog.files.map (·.id)) :
    Coherent context after := by
  obtain ⟨held, hheld, hheldFile, hheldVolume, -⟩ := h.held hc hfresh
  refine
    { ids := by rw [h.files]; exact withPresent_nodup hc.ids
      known := ?_
      sameFile := ?_
      sameKey := ?_
      paths := h.paths hc.paths
      files := h.onePerFile hc.files
      identified := ?_
      present := ?_ }
  · intro row hrow
    rw [h.files]
    refine mem_withPresent_ids.2 ?_
    rcases h.identities row hrow with hbefore | ⟨hfile, -, -⟩
    · exact .inl (hc.known row hbefore)
    · exact .inr hfile
  · intro a ha b hb hvolume hkey
    by_cases hfile : a.fileId = catalog.fileOf volumeId o
    · obtain ⟨hv, hk⟩ := (h.fileOf_iff hc hfresh ha).1 hfile
      exact hfile.trans ((h.fileOf_iff hc hfresh hb).2 ⟨hvolume ▸ hv, hkey ▸ hk⟩).symm
    · have hother : b.fileId ≠ catalog.fileOf volumeId o := fun hb' => by
        obtain ⟨hv, hk⟩ := (h.fileOf_iff hc hfresh hb).1 hb'
        exact hfile ((h.fileOf_iff hc hfresh ha).2 ⟨hvolume.trans hv, hkey.trans hk⟩)
      exact hc.sameFile a (h.other ha hfile) b (h.other hb hother) hvolume hkey
  · intro a ha b hb hfile
    by_cases hobserved : a.fileId = catalog.fileOf volumeId o
    · obtain ⟨hv, hk⟩ := (h.fileOf_iff hc hfresh ha).1 hobserved
      obtain ⟨hv', hk'⟩ := (h.fileOf_iff hc hfresh hb).1 (hfile ▸ hobserved)
      exact ⟨hv.trans hv'.symm, hk.trans hk'.symm⟩
    · exact hc.sameKey a (h.other ha hobserved) b (h.other hb (hfile ▸ hobserved)) hfile
  · intro location hlocation
    rcases h.locations location hlocation with ⟨hbefore, -⟩ | ⟨hfile, hat, -⟩
    · obtain ⟨row, hrow, hsame, hroot⟩ := hc.identified location hbefore
      exact ⟨row, h.identitiesKept row hrow, hsame, hroot⟩
    · exact ⟨held, hheld, hheldFile.trans hfile.symm, caseSensitive,
        by rw [hat.1, hheldVolume]; exact h.root⟩
  · intro file hfile
    rw [h.files] at hfile
    rcases mem_withPresent hfile with ⟨hid, hpresent⟩ | ⟨hid, hbefore⟩
    · exact ⟨fun _ => ⟨held, hheld, hheldFile.trans hid.symm⟩, fun _ => hpresent⟩
    · rw [hc.present file hbefore]
      refine ⟨fun ⟨row, hrow, hsame⟩ => ⟨row, h.identitiesKept row hrow, hsame⟩, ?_⟩
      rintro ⟨row, hrow, hsame⟩
      exact ⟨row, h.other hrow (hsame ▸ hid), hsame⟩

/-! ## Missing paths keep catalogs coherent -/

/-- What a missing path does to the rows. -/
inductive Missed (catalog : FileCatalog) : FileCatalog → Prop where
  | absent : Missed catalog catalog
  | gone {location : LocationRow} {after : FileCatalog} :
      location ∈ current catalog.locations →
      after.files = catalog.files.map (fun file =>
        if file.id = location.fileId then { file with lifecycleState := .missing } else file) →
      (∀ row, row ∈ current after.identities ↔
        row ∈ current catalog.identities ∧ row.fileId ≠ location.fileId) →
      (current after.locations).Sublist (current catalog.locations) →
      (∀ row, row ∈ current after.locations ↔
        row ∈ current catalog.locations ∧ row ≠ location) →
      Missed catalog after

theorem markCurrentPathMissing_spec (hc : Coherent context catalog) {rootId : RootId}
    {path : NativePath} {scanId : ScanId} {found : Bool}
    (h : markCurrentPathMissing context rootId path scanId catalog = .ok (found, after)) :
    Missed catalog after := by
  simp only [markCurrentPathMissing, bind_eq_ok, orError_eq_ok, require_eq_ok] at h
  obtain ⟨path, -, ⟨volumeId, caseSensitive⟩, -, normalized, -, -, -, hresult⟩ := h
  cases hfind : (current catalog.locations).find? fun row =>
      row.rootId = rootId && row.normalizedRelativePathNative = normalized with
  | none =>
      rw [hfind] at hresult
      simp only [pure, Except.pure, Except.ok.injEq, Prod.mk.injEq] at hresult
      obtain ⟨-, rfl⟩ := hresult
      exact .absent
  | some location =>
      have hlocation := List.mem_of_find?_eq_some hfind
      -- a file has one location, so the one that is closed was its last
      have hlast : (current (close (decide <| · = location) scanId catalog.locations)).any
          (·.fileId = location.fileId) = false := by
        rw [List.any_eq_false]
        intro other hother
        obtain ⟨hmem, hne⟩ := mem_current_close.1 hother
        have hne : other ≠ location := of_decide_eq_false hne
        simpa using fun hfile => hne (hc.location_eq hmem hlocation hfile)
      rw [hfind] at hresult
      simp only [hlast, Bool.false_eq_true, if_false, pure, Except.pure, Except.ok.injEq,
        Prod.mk.injEq] at hresult
      obtain ⟨-, rfl⟩ := hresult
      refine .gone hlocation rfl (fun row => ?_) ?_ fun row => ?_
      · rw [mem_current_close, decide_eq_false_iff_not]
      · rw [current_close]
        exact List.filter_sublist
      · rw [mem_current_close, decide_eq_false_iff_not]

theorem Missed.coherent (h : Missed catalog after) (hc : Coherent context catalog) :
    Coherent context after := by
  cases h with
  | absent => exact hc
  | @gone location _ hlocation hfiles hidentities hsublist hlocations =>
      have hids : after.files.map (·.id) = catalog.files.map (·.id) := by
        rw [hfiles, List.map_map]
        refine List.map_congr_left fun file _ => ?_
        by_cases hid : file.id = location.fileId <;> simp [hid]
      refine
        { ids := hids ▸ hc.ids
          known := fun row hrow => hids ▸ hc.known row ((hidentities row).1 hrow).1
          sameFile := fun a ha b hb =>
            hc.sameFile a ((hidentities a).1 ha).1 b ((hidentities b).1 hb).1
          sameKey := fun a ha b hb =>
            hc.sameKey a ((hidentities a).1 ha).1 b ((hidentities b).1 hb).1
          paths := hc.paths.sublist hsublist
          files := hc.files.sublist hsublist
          identified := ?_
          present := ?_ }
      · intro other hother
        obtain ⟨hmem, hne⟩ := (hlocations other).1 hother
        obtain ⟨row, hrow, hfile, hroot⟩ := hc.identified other hmem
        refine ⟨row, (hidentities row).2 ⟨hrow, fun hsame => hne ?_⟩, hfile, hroot⟩
        exact hc.location_eq hmem hlocation (hfile.symm.trans hsame)
      · intro file hfile
        rw [hfiles] at hfile
        obtain ⟨before, hbefore, rfl⟩ := List.mem_map.1 hfile
        by_cases hid : before.id = location.fileId
        · rw [if_pos hid]
          refine ⟨fun hpresent => (nomatch hpresent), ?_⟩
          rintro ⟨row, hrow, hsame⟩
          exact absurd (hsame.trans hid) ((hidentities row).1 hrow).2
        · rw [if_neg hid, hc.present before hbefore]
          refine ⟨?_, fun ⟨row, hrow, hsame⟩ => ⟨row, ((hidentities row).1 hrow).1, hsame⟩⟩
          rintro ⟨row, hrow, hsame⟩
          exact ⟨row, (hidentities row).2 ⟨hrow, fun h => hid (hsame.symm.trans h)⟩, hsame⟩

end Zemo.Catalog
