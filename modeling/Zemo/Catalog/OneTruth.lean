import Zemo.Catalog.Coherent
import Zemo.Lib.Run

set_option autoImplicit false

/-! # One truth per file

A file is present exactly when it has a current location. A scan establishes that when it observes,
with a path, also the file that was known there: the one it takes a path from is closed out of it
and nothing else is said of it. `catalog_truth` is about the runs whose scans are `Tidy` in this
sense. -/

namespace Zemo.Catalog

open Checked Versioned

variable {context : CatalogContext} {catalog before after : FileCatalog} {o : FileObservation}
  {input : ScanCompletionInput} {volumeId : Nat} {caseSensitive : Bool} {fileId : FileId}
  {key normalized : List UInt8} {done todo : List FileObservation}

/-! ## What is promised -/

/-- One truth per file. -/
structure OneTruth (catalog : FileCatalog) : Prop where
  paths : (current catalog.locations).Pairwise (¬SamePath · ·)
  files : (current catalog.locations).Pairwise (·.fileId ≠ ·.fileId)
  present : ∀ file ∈ catalog.files, file.lifecycleState = .present ↔
    ∃ location ∈ current catalog.locations, location.fileId = file.id
  identities : ∀ row ∈ current catalog.identities,
    ∃ location ∈ current catalog.locations, location.fileId = row.fileId

/-- The observed file is current where it was observed, under the file that held its identity. -/
def CurrentAt (context : CatalogContext) (volumeId : Nat) (caseSensitive : Bool)
    (before after : FileCatalog) (o : FileObservation) : Prop :=
  ∃ location ∈ current after.locations,
    location.rootId = o.rootId
      ∧ nativePathStorageBlob o.relativePath = .ok location.relativePathNative
      ∧ normalizedNativePathStorageBlob context o.relativePath caseSensitive
        = .ok location.normalizedRelativePathNative
      ∧ after.holder volumeId o.objectKey = some location.fileId
      ∧ ∀ fileId, before.holder volumeId o.objectKey = some fileId → location.fileId = fileId

/-! ## What scans observe -/

/-- The identity of an observation is new to the scan, and so is its path. -/
structure Lawful (catalog : FileCatalog) (input : ScanCompletionInput) : Prop where
  roots : ∀ o ∈ input.files, o.rootId = input.rootId
  paths : input.files.Pairwise (·.relativePath ≠ ·.relativePath)
  identities : input.files.Pairwise fun a b => ¬(a.volume = b.volume ∧ a.objectKey = b.objectKey)
  /-- The identifiers drawn for new files. -/
  drawn : input.files.Pairwise (·.fileId ≠ ·.fileId)
  fresh : ∀ o ∈ input.files, o.fileId ∉ catalog.files.map (·.id)

/-- The key of an observed path. -/
def keyOf (context : CatalogContext) (caseSensitive : Bool) (o : FileObservation) :
    Except CatalogError (List UInt8) :=
  normalizedNativePathStorageBlob context o.relativePath caseSensitive

/-- The paths of a scan can be stored. -/
def Storable (context : CatalogContext) (caseSensitive : Bool) (input : ScanCompletionInput) :
    Prop :=
  ∀ o ∈ input.files, (∃ native, nativePathStorageBlob o.relativePath = .ok native)
    ∧ ∃ key, keyOf context caseSensitive o = .ok key

/-- The scan does not take a path from a file it does not observe, and what the catalog compares
    tells its observations apart. -/
structure Tidy (context : CatalogContext) (catalog : FileCatalog) (volumeId : Nat)
    (caseSensitive : Bool) (input : ScanCompletionInput) : Prop where
  keys : input.files.Pairwise (keyOf context caseSensitive · ≠ keyOf context caseSensitive ·)
  objects : input.files.Pairwise (·.objectKey ≠ ·.objectKey)
  displaced : ∀ o ∈ input.files, ∀ location ∈ current catalog.locations,
    location.rootId = input.rootId →
    keyOf context caseSensitive o = .ok location.normalizedRelativePathNative →
    ∃ other ∈ input.files, catalog.holder volumeId other.objectKey = some location.fileId
  respelled : ∀ o ∈ input.files, ∀ location ∈ current catalog.locations,
    location.rootId = input.rootId →
    keyOf context caseSensitive o = .ok location.normalizedRelativePathNative →
    catalog.holder volumeId o.objectKey = some location.fileId →
    nativePathStorageBlob o.relativePath = .ok location.relativePathNative

/-- A scan that can be stored is tidy. -/
def TidyScan (context : CatalogContext) (catalog : FileCatalog) (input : ScanCompletionInput) :
    Prop :=
  ∀ volumeId caseSensitive, context.roots input.rootId = some (volumeId, caseSensitive) →
    Storable context caseSensitive input → Tidy context catalog volumeId caseSensitive input

/-! ## Through a scan -/

/-- In the middle of a tidy scan. -/
structure Midway (context : CatalogContext) (volumeId : Nat) (caseSensitive : Bool)
    (input : ScanCompletionInput) (before : FileCatalog) (done todo : List FileObservation)
    (now : FileCatalog) : Prop where
  split : input.files = done ++ todo
  start : Coherent context before
  coherent : Coherent context now
  fresh : ∀ o ∈ todo, o.fileId ∉ now.files.map (·.id)
  kept : ∀ row ∈ current before.identities, row ∈ current now.identities
  settled : ∀ row ∈ current now.identities,
    (∃ location ∈ current now.locations, location.fileId = row.fileId)
      ∨ ∃ o ∈ todo, row.volumeId = volumeId ∧ row.key = o.objectKey
  origin : ∀ location ∈ current now.locations, location ∈ current before.locations
    ∨ ∃ o ∈ done, location.rootId = o.rootId
      ∧ keyOf context caseSensitive o = .ok location.normalizedRelativePathNative
  placed : ∀ o ∈ done, CurrentAt context volumeId caseSensitive before now o

theorem Midway.initially (hc : Coherent context before) (hlawful : Lawful before input)
    (hsettled : ∀ row ∈ current before.identities,
      ∃ location ∈ current before.locations, location.fileId = row.fileId) :
    Midway context volumeId caseSensitive input before [] input.files before where
  split := rfl
  start := hc
  coherent := hc
  fresh := hlawful.fresh
  kept _ hrow := hrow
  settled row hrow := .inl (hsettled row hrow)
  origin _ hlocation := .inl hlocation
  placed _ ho := nomatch ho

/-- The keys of a scan tell its observations apart. -/
theorem Tidy.key_ne (h : Tidy context catalog volumeId caseSensitive input)
    (hsplit : input.files = done ++ o :: todo) {other : FileObservation} (hother : other ∈ done) :
    keyOf context caseSensitive other ≠ keyOf context caseSensitive o
      ∧ other.objectKey ≠ o.objectKey := by
  have hkeys := h.keys
  have hobjects := h.objects
  rw [hsplit] at hkeys hobjects
  exact ⟨(List.pairwise_append.1 hkeys).2.2 other hother o (List.mem_cons_self ..),
    (List.pairwise_append.1 hobjects).2.2 other hother o (List.mem_cons_self ..)⟩

/-- A location at the path of an observation still to come was there before the scan. -/
theorem Midway.location_before
    (h : Midway context volumeId caseSensitive input before done (o :: todo) catalog)
    (htidy : Tidy context before volumeId caseSensitive input) {location : LocationRow}
    (hlocation : location ∈ current catalog.locations)
    (hkey : keyOf context caseSensitive o = .ok location.normalizedRelativePathNative) :
    location ∈ current before.locations := by
  rcases h.origin location hlocation with hbefore | ⟨other, hother, -, hsame⟩
  · exact hbefore
  · exact absurd (hsame.trans hkey.symm) (htidy.key_ne h.split hother).1

/-- A file that an observation takes the path from is observed later in the scan. -/
theorem Midway.displaced_later
    (h : Midway context volumeId caseSensitive input before done (o :: todo) catalog)
    (htidy : Tidy context before volumeId caseSensitive input) (hlawful : Lawful before input)
    {location : LocationRow} (hlocation : location ∈ current catalog.locations)
    (hroot : location.rootId = o.rootId)
    (hkey : keyOf context caseSensitive o = .ok location.normalizedRelativePathNative)
    (hfile : location.fileId ≠ catalog.fileOf volumeId o)
    {row : IdentityRow} (hrow : row ∈ current catalog.identities)
    (hsame : location.fileId = row.fileId) :
    ∃ other ∈ todo, row.volumeId = volumeId ∧ row.key = other.objectKey := by
  have hbefore := h.location_before htidy hlocation hkey
  have ho : o ∈ input.files := h.split ▸ List.mem_append_right _ (List.mem_cons_self ..)
  obtain ⟨other, hother, hholder⟩ := htidy.displaced o ho location hbefore
    (hroot.trans (hlawful.roots o ho)) hkey
  obtain ⟨held, hheld, hheldFile, hheldVolume, hheldKey⟩ := holder_mem hholder
  obtain ⟨hvolume, hrowKey⟩ := h.coherent.sameKey row hrow held (h.kept held hheld)
    (hsame.symm.trans hheldFile.symm)
  rw [hheldVolume] at hvolume
  rw [hheldKey] at hrowKey
  rw [h.split] at hother
  rcases List.mem_append.1 hother with hdone | hother
  · -- a file that was observed already is at its own path
    obtain ⟨at_, hat, -, -, hatKey, hatHolder, -⟩ := h.placed other hdone
    have hnow : catalog.holder volumeId other.objectKey = some row.fileId := by
      rw [← hvolume, ← hrowKey]
      exact h.coherent.holder_eq hrow
    obtain rfl := h.coherent.location_eq hat hlocation
      ((Option.some.inj (hatHolder.symm.trans hnow)).trans hsame.symm)
    exact absurd (hatKey.trans hkey.symm) (htidy.key_ne h.split hdone).1
  · rcases List.mem_cons.1 hother with rfl | hother
    · exact absurd (hsame.trans ((h.coherent.fileOf_iff (h.fresh other (List.mem_cons_self ..))
        hrow).2 ⟨hvolume, hrowKey⟩)) hfile
    · exact ⟨other, hother, hvolume, hrowKey⟩

theorem Midway.observe
    (h : Midway context volumeId caseSensitive input before done (o :: todo) catalog)
    (htidy : Tidy context before volumeId caseSensitive input) (hlawful : Lawful before input)
    (hobserved : Observed context o catalog after volumeId caseSensitive normalized) :
    Midway context volumeId caseSensitive input before (done ++ [o]) todo after := by
  have ho : o ∈ input.files := h.split ▸ List.mem_append_right _ (List.mem_cons_self ..)
  have hfreshO := h.fresh o (List.mem_cons_self ..)
  have hcoherent := hobserved.coherent h.coherent hfreshO
  have hatKey : ∀ location : LocationRow, location.at o normalized →
      keyOf context caseSensitive o = .ok location.normalizedRelativePathNative :=
    fun location hat => hobserved.key.trans (congrArg _ hat.2.symm)
  obtain ⟨held, hheld, hheldFile, hheldVolume, hheldKey⟩ := hobserved.held h.coherent hfreshO
  refine
    { split := by rw [h.split, List.append_assoc, List.singleton_append]
      start := h.start
      coherent := hcoherent
      fresh := ?_
      kept := fun row hrow => hobserved.identitiesKept row (h.kept row hrow)
      settled := ?_
      origin := ?_
      placed := ?_ }
  · intro other hother hknown
    rw [hobserved.files, mem_withPresent_ids] at hknown
    rcases hknown with hknown | hnew
    · exact h.fresh other (List.mem_cons_of_mem _ hother) hknown
    · -- the file of `o` is one that was known, or the one drawn for it
      cases hholder : catalog.holder volumeId o.objectKey with
      | some fileId =>
          obtain ⟨row, hrow, rfl, -⟩ := holder_mem hholder
          rw [FileCatalog.fileOf, hholder, Option.getD_some] at hnew
          exact h.fresh other (List.mem_cons_of_mem _ hother) (hnew ▸ h.coherent.known row hrow)
      | none =>
          rw [FileCatalog.fileOf, hholder, Option.getD_none] at hnew
          have hdrawn := hlawful.drawn
          rw [h.split] at hdrawn
          have htail := (List.pairwise_cons.1 (List.pairwise_append.1 hdrawn).2.1).1
          exact htail other hother hnew.symm
  · intro row hrow
    by_cases hfile : row.fileId = catalog.fileOf volumeId o
    · obtain ⟨location, hlocation, hsame, -⟩ := hobserved.located
      exact .inl ⟨location, hlocation, hsame.trans hfile.symm⟩
    · have hbefore := hobserved.other hrow hfile
      rcases h.settled row hbefore with ⟨location, hlocation, hsame⟩ | ⟨other, hother, hv, hk⟩
      · by_cases hat : location.at o normalized
        · exact .inr (h.displaced_later htidy hlawful hlocation hat.1 (hatKey location hat)
            (hsame ▸ hfile) hbefore hsame)
        · exact .inl ⟨location, hobserved.locationsKept location hlocation hat (hsame ▸ hfile),
            hsame⟩
      · rcases List.mem_cons.1 hother with rfl | hother
        · exact absurd ((h.coherent.fileOf_iff hfreshO hbefore).2 ⟨hv, hk⟩) hfile
        · exact .inr ⟨other, hother, hv, hk⟩
  · intro location hlocation
    rcases hobserved.locations location hlocation with ⟨hbefore, -⟩ | ⟨-, hat, -⟩
    · rcases h.origin location hbefore with horigin | ⟨other, hother, hsame⟩
      · exact .inl horigin
      · exact .inr ⟨other, List.mem_append_left _ hother, hsame⟩
    · exact .inr ⟨o, List.mem_append_right _ (List.mem_singleton_self o), hat.1,
        hatKey location hat⟩
  · intro other hother
    rcases List.mem_append.1 hother with hdone | hlast
    · -- the file of another observation has another identity and another key, so it stays
      obtain ⟨location, hlocation, hroot, hnative, hkey, hholder, hheldBefore⟩ :=
        h.placed other hdone
      obtain ⟨hkeyNe, hobjectNe⟩ := htidy.key_ne h.split hdone
      obtain ⟨row, hrow, hrowFile, hrowVolume, hrowKey⟩ := holder_mem hholder
      have hfile : location.fileId ≠ catalog.fileOf volumeId o := fun heq =>
        hobjectNe (hrowKey.symm.trans
          ((h.coherent.fileOf_iff hfreshO hrow).1 (hrowFile.trans heq)).2)
      have hat : ¬location.at o normalized := fun hat =>
        hkeyNe (hkey.trans (hatKey location hat).symm)
      refine ⟨location, hobserved.locationsKept location hlocation hat hfile, hroot, hnative, hkey,
        ?_, hheldBefore⟩
      rw [← hrowVolume, ← hrowKey, ← hrowFile]
      exact hcoherent.holder_eq (hobserved.identitiesKept row hrow)
    · obtain rfl := List.mem_singleton.1 hlast
      obtain ⟨location, hlocation, hfile, hat⟩ := hobserved.located
      have hholder : after.holder volumeId other.objectKey = some location.fileId := by
        rw [← hheldVolume, ← hheldKey, hfile, ← hheldFile]
        exact hcoherent.holder_eq hheld
      have hbeforeHolder : ∀ fileId, before.holder volumeId other.objectKey = some fileId →
          location.fileId = fileId := by
        intro fileId hbefore
        obtain ⟨row, hrow, hrowFile, hrowVolume, hrowKey⟩ := holder_mem hbefore
        rw [hfile, ← hrowFile]
        exact ((h.coherent.fileOf_iff hfreshO (h.kept row hrow)).2 ⟨hrowVolume, hrowKey⟩).symm
      refine ⟨location, hlocation, hat.1, ?_, hatKey location hat, hholder, hbeforeHolder⟩
      rcases hobserved.locations location hlocation with ⟨hbefore, -⟩ | ⟨-, -, hnative⟩
      · -- the file was at the path already, and was spelled the same
        have hstart := h.location_before htidy hbefore (hatKey location hat)
        have hroot := hat.1.trans (hlawful.roots other ho)
        obtain ⟨row, hrow, hrowFile, -⟩ := h.start.identified location hstart
        obtain ⟨hv, hk⟩ := (h.coherent.fileOf_iff hfreshO (h.kept row hrow)).1
          (hrowFile.trans hfile)
        refine htidy.respelled other ho location hstart hroot (hatKey location hat) ?_
        rw [← hv, ← hk, ← hrowFile]
        exact h.start.holder_eq hrow
      · exact hnative

/-- The rest of a tidy scan. -/
theorem Midway.finish (htidy : Tidy context before volumeId caseSensitive input)
    (hlawful : Lawful before input)
    (hroots : context.roots input.rootId = some (volumeId, caseSensitive))
    (h : Midway context volumeId caseSensitive input before done todo catalog)
    (hscan : todo.foldlM (fun catalog o => persistObservation context o catalog) catalog
      = .ok after) :
    Midway context volumeId caseSensitive input before (done ++ todo) [] after := by
  induction todo generalizing done catalog with
  | nil =>
      obtain rfl := Except.ok.inj hscan
      rwa [List.append_nil]
  | cons o todo ih =>
      rw [List.foldlM_cons, bind_eq_ok] at hscan
      obtain ⟨next, hnext, hrest⟩ := hscan
      obtain ⟨volume, sensitive, normalized, hobserved⟩ := persistObservation_spec hnext
      have ho : o ∈ input.files := h.split ▸ List.mem_append_right _ (List.mem_cons_self ..)
      obtain ⟨rfl, rfl⟩ : volume = volumeId ∧ sensitive = caseSensitive := by
        have hroot := hobserved.root
        rw [hlawful.roots o ho, hroots] at hroot
        exact ⟨(Prod.mk.inj (Option.some.inj hroot)).1.symm,
          (Prod.mk.inj (Option.some.inj hroot)).2.symm⟩
      have hfinish := ih (h.observe htidy hlawful hobserved) hrest
      rwa [List.append_assoc, List.singleton_append] at hfinish

/-- A scan that succeeds stored its paths. -/
theorem storable_of_scan (hlawful : Lawful before input)
    (hroots : context.roots input.rootId = some (volumeId, caseSensitive))
    (hscan : completeScan context input before = .ok after) :
    Storable context caseSensitive input := by
  have hall : ∀ (files : List FileObservation) (start : FileCatalog),
      (∀ o ∈ files, o.rootId = input.rootId) →
      files.foldlM (fun catalog o => persistObservation context o catalog) start = .ok after →
      ∀ o ∈ files, (∃ native, nativePathStorageBlob o.relativePath = .ok native)
        ∧ ∃ key, keyOf context caseSensitive o = .ok key := by
    intro files
    induction files with
    | nil => exact fun _ _ _ _ ho => nomatch ho
    | cons first rest ih =>
        intro start hsame hfold
        rw [List.foldlM_cons, bind_eq_ok] at hfold
        obtain ⟨next, hnext, hrest⟩ := hfold
        obtain ⟨volume, sensitive, normalized, hobserved⟩ := persistObservation_spec hnext
        have hroot := hobserved.root
        rw [hsame first (List.mem_cons_self ..), hroots] at hroot
        obtain ⟨-, rfl⟩ := Prod.mk.inj (Option.some.inj hroot)
        refine List.forall_mem_cons.2 ⟨⟨hobserved.native, normalized, hobserved.key⟩, ?_⟩
        exact ih next (fun o ho => hsame o (List.mem_cons_of_mem _ ho)) hrest
  exact hall input.files before hlawful.roots hscan

/-- The root of a scan that stored an observation is registered. -/
theorem root_known (hlawful : Lawful before input)
    (hscan : completeScan context input before = .ok after) (ho : o ∈ input.files) :
    ∃ volumeId caseSensitive, context.roots input.rootId = some (volumeId, caseSensitive) := by
  unfold completeScan at hscan
  cases hfiles : input.files with
  | nil => exact absurd ho (by rw [hfiles]; exact List.not_mem_nil)
  | cons first rest =>
      rw [hfiles, List.foldlM_cons, bind_eq_ok] at hscan
      obtain ⟨next, hnext, -⟩ := hscan
      obtain ⟨volumeId, caseSensitive, normalized, hobserved⟩ := persistObservation_spec hnext
      have hfirst : first ∈ input.files := hfiles ▸ List.mem_cons_self ..
      exact ⟨volumeId, caseSensitive, hlawful.roots first hfirst ▸ hobserved.root⟩

/-! ## Runs -/

/-- The rows fit together, and every identity that is current has a place. -/
structure Settled (context : CatalogContext) (catalog : FileCatalog) : Prop where
  coherent : Coherent context catalog
  located : ∀ row ∈ current catalog.identities,
    ∃ location ∈ current catalog.locations, location.fileId = row.fileId

theorem Settled.oneTruth (h : Settled context catalog) : OneTruth catalog where
  paths := h.coherent.paths
  files := h.coherent.files
  present file hfile := by
    rw [h.coherent.present file hfile]
    constructor
    · rintro ⟨row, hrow, hsame⟩
      obtain ⟨location, hlocation, hlocated⟩ := h.located row hrow
      exact ⟨location, hlocation, hlocated.trans hsame⟩
    · rintro ⟨location, hlocation, hsame⟩
      obtain ⟨row, hrow, hrowFile, -⟩ := h.coherent.identified location hlocation
      exact ⟨row, hrow, hrowFile.trans hsame⟩
  identities := h.located

/-- The observations of the scan are current where they were observed. -/
def AllCurrent (context : CatalogContext) (before after : FileCatalog)
    (input : ScanCompletionInput) : Prop :=
  ∀ o ∈ input.files, ∃ volumeId caseSensitive,
    context.roots input.rootId = some (volumeId, caseSensitive)
      ∧ CurrentAt context volumeId caseSensitive before after o

theorem Settled.scan (h : Settled context before) (hlawful : Lawful before input)
    (htidy : TidyScan context before input)
    (hscan : completeScan context input before = .ok after) :
    Settled context after ∧ AllCurrent context before after input := by
  rcases List.eq_nil_or_concat' input.files with hnil | ⟨init, last, hlast⟩
  · -- nothing was observed
    unfold completeScan at hscan
    rw [hnil] at hscan
    obtain rfl := Except.ok.inj hscan
    exact ⟨h, fun o ho => absurd ho (by rw [hnil]; exact List.not_mem_nil)⟩
  · have hmem : last ∈ input.files := hlast ▸ List.mem_append_right _ (List.mem_singleton_self _)
    obtain ⟨volumeId, caseSensitive, hroots⟩ := root_known hlawful hscan hmem
    have htidy := htidy volumeId caseSensitive hroots (storable_of_scan hlawful hroots hscan)
    have hstart : Midway context volumeId caseSensitive input before [] input.files before :=
      .initially h.coherent hlawful h.located
    have hend := hstart.finish htidy hlawful hroots hscan
    refine ⟨⟨hend.coherent, fun row hrow => ?_⟩, fun o ho =>
      ⟨volumeId, caseSensitive, hroots, hend.placed o ho⟩⟩
    rcases hend.settled row hrow with hlocated | ⟨_, hnone, -⟩
    · exact hlocated
    · cases hnone

theorem Settled.missed (h : Settled context before) (hmissed : Missed before after) :
    Settled context after := by
  refine ⟨hmissed.coherent h.coherent, fun row hrow => ?_⟩
  cases hmissed with
  | absent => exact h.located row hrow
  | @gone location _ _ _ hidentities _ hlocations =>
      obtain ⟨hbefore, hfile⟩ := (hidentities row).1 hrow
      obtain ⟨other, hother, hsame⟩ := h.located row hbefore
      refine ⟨other, (hlocations other).2 ⟨hother, fun heq => hfile ?_⟩, hsame⟩
      rw [← hsame, heq]

/-- The scans the catalog is meant for. -/
def CatalogCall.Lawful (catalog : FileCatalog) : CatalogCall → Prop
  | .scan input => Zemo.Catalog.Lawful catalog input
  | .markMissing _ _ _ => True

/-- The scan of a call is tidy. -/
def CatalogCall.Tidy (context : CatalogContext) (catalog : FileCatalog) : CatalogCall → Prop
  | .scan input => TidyScan context catalog input
  | .markMissing _ _ _ => True

theorem CatalogCall.step_settled (call : CatalogCall) (h : Settled context catalog)
    (hlawful : call.Lawful catalog) (htidy : call.Tidy context catalog) :
    Settled context (CatalogCall.step context catalog call) := by
  cases call with
  | scan input =>
      rw [CatalogCall.step]
      cases hscan : completeScan context input catalog with
      | ok after => exact (h.scan hlawful htidy hscan).1
      | error _ => exact h
  | markMissing rootId path scanId =>
      rw [CatalogCall.step]
      cases hmark : markCurrentPathMissing context rootId path scanId catalog with
      | ok result => exact h.missed (markCurrentPathMissing_spec h.coherent hmark)
      | error _ => exact h

/-- **One truth per file**, in every state of a run whose scans are tidy, and after each such scan
    its files are current where they were observed. -/
theorem catalog_truth
    (h : Run.Reach (CatalogCall.step context)
      (fun s call => call.Lawful s ∧ call.Tidy context s) {} catalog) :
    OneTruth catalog ∧ ∀ input after, Lawful catalog input → TidyScan context catalog input →
      completeScan context input catalog = .ok after → AllCurrent context catalog after input := by
  have hsettled : Settled context catalog := by
    refine h.invariant ⟨.start context, fun _ hrow => nomatch hrow⟩ ?_
    rintro s call hs ⟨hlawful, htidy⟩
    exact call.step_settled hs hlawful htidy
  exact ⟨hsettled.oneTruth, fun input after hlawful htidy hscan =>
    (hsettled.scan hlawful htidy hscan).2⟩

/-! ### Two files -/

private def sampleContext : CatalogContext where
  lower := id
  normalizeRelative := .ok
  roots root := if root = 0 then some (0, true) else none
  isReconciliation _ _ := true

/-- The file of an object, seen at a one-letter path. -/
private def seen (fileId : FileId) (scanId : ScanId) (letter object : UInt8) :
    FileObservation where
  fileId := fileId
  rootId := 0
  scanId := scanId
  relativePath := { encoding := .unixBytes, bytes := [letter] }
  volume :=
    { platform := .linux, stableIdentifier := "volume", filesystemType := none,
      caseSensitive := true, removable := false, isLocal := true }
  objectKey := [object]

/-- Two files at `a` and `b`. -/
private def firstScan : CatalogCall :=
  .scan { rootId := 0, scanId := 1, files := [seen 11 1 97 1, seen 12 1 98 2] }

/-- The two have changed places. -/
private def swapScan : CatalogCall :=
  .scan { rootId := 0, scanId := 2, files := [seen 21 2 98 1, seen 22 2 97 2] }

/-- The second was moved onto the first. -/
private def overwriteScan : CatalogCall :=
  .scan { rootId := 0, scanId := 2, files := [seen 22 2 97 2] }

private def twoFiles : FileCatalog := CatalogCall.step sampleContext {} firstScan

private theorem firstScan_lawful : firstScan.Lawful {} where
  roots := by decide
  paths := by decide
  identities := by decide
  drawn := by decide
  fresh := by decide

private theorem overwriteScan_lawful : overwriteScan.Lawful twoFiles where
  roots := by decide
  paths := by decide
  identities := by decide
  drawn := by decide
  fresh := by decide +kernel

/-- A file a scan took the path from is still present, and has no location. -/
theorem overwritten_stays_present :
    ∃ catalog, Run.Reach (CatalogCall.step sampleContext) (fun s call => call.Lawful s) {} catalog
      ∧ ¬OneTruth catalog := by
  refine ⟨CatalogCall.step sampleContext twoFiles overwriteScan,
    .step (.step .start firstScan_lawful) overwriteScan_lawful, fun h => ?_⟩
  have hpresent := h.present { id := 11, lifecycleState := .present } (by decide +kernel)
  exact absurd (hpresent.1 rfl) (by decide +kernel)

private theorem swapScan_lawful : swapScan.Lawful twoFiles where
  roots := by decide
  paths := by decide
  identities := by decide
  drawn := by decide
  fresh := by decide +kernel

private theorem firstScan_tidy : firstScan.Tidy sampleContext {} := by
  rintro _ _ hroot -
  obtain ⟨rfl, rfl⟩ := Prod.mk.inj (Option.some.inj hroot)
  exact ⟨by decide +kernel, by decide +kernel, by decide +kernel, by decide +kernel⟩

private theorem swapScan_tidy : swapScan.Tidy sampleContext twoFiles := by
  rintro _ _ hroot -
  obtain ⟨rfl, rfl⟩ := Prod.mk.inj (Option.some.inj hroot)
  exact ⟨by decide +kernel, by decide +kernel, by decide +kernel, by decide +kernel⟩

/-- The scans of a swap are tidy. -/
theorem catalog_truth_swap : OneTruth (CatalogCall.step sampleContext twoFiles swapScan) :=
  (catalog_truth (.step (.step .start ⟨firstScan_lawful, firstScan_tidy⟩)
    ⟨swapScan_lawful, swapScan_tidy⟩)).1

end Zemo.Catalog
