import Zemo.Monitoring.ExactGap

set_option autoImplicit false

/-! # What a reconciliation of a root leaves behind

A run of `reconcile_root_gap` that returns has read both sides, compared them, and given the events
to the queue. From it follow what it leaves when a side is incomplete, and when its events are the
exact difference of disk and catalog. -/

namespace Zemo.Monitoring

open Scan

variable {world : GapWorld} {s t : GapState} {n : Nat}

/-! ## The parts of a run -/

theorem lift_bind_eq_ok {σ ε α β : Type} {r : Except ε α} {f : α → Prog σ ε β} {s t : σ} {b : β}
    (h : (Prog.lift r >>= f) s = (.ok b, t)) : ∃ a, r = .ok a ∧ f a s = (.ok b, t) := by
  cases r with
  | ok a => exact ⟨a, rfl, h⟩
  | error e => exact nomatch h

/-- Every chunk that was appended is in the queue, in order, and nothing else has changed. -/
theorem forEach_appendChunk {batches : List (List WatchEventInput)} {u : Unit}
    (h : Prog.forEach (appendChunk world) batches s = (.ok u, t)) :
    t = { s with appended := s.appended ++ batches.flatten } := by
  induction batches generalizing s with
  | nil =>
      obtain rfl := (Prod.mk.inj h).2
      rw [List.flatten_nil, List.append_nil]
  | cons chunk batches ih =>
      obtain ⟨u, s₁, hfirst, hrest⟩ := Prog.bind_eq_ok h
      obtain ⟨-, -, hmod⟩ := lift_bind_eq_ok hfirst
      obtain rfl := (Prod.mk.inj hmod).2
      rw [ih hrest, List.flatten_cons, List.append_assoc]

theorem setRootMonitoringStatus_ok {status : MonitoringRootStatus}
    {errorCode errorMessage : Option String} {u : Unit}
    (h : setRootMonitoringStatus world status errorCode errorMessage s = (.ok u, t)) :
    t = { s with status := status, errorCode := errorCode, errorMessage := errorMessage } := by
  obtain ⟨-, -, hmod⟩ := lift_bind_eq_ok h
  exact (Prod.mk.inj hmod).2.symm

/-- The row of a root that was found to agree with the catalog. -/
def Reconciled (world : GapWorld) (s t : GapState) : Prop :=
  t.status = (if s.enabled then .active else .paused) ∧ t.errorCode = none
    ∧ ∃ scanId, world.emptyReconciliation = .ok scanId ∧ t.lastReconciliation = some scanId

theorem markRootReconciled_ok {u : Unit} (h : markRootReconciled world s = (.ok u, t)) :
    t.appended = s.appended ∧ Reconciled world s t := by
  obtain ⟨scanId, hscan, hmod⟩ := lift_bind_eq_ok h
  obtain rfl := (Prod.mk.inj hmod).2
  exact ⟨rfl, rfl, rfl, scanId, hscan, rfl⟩

/-- **What comes after the comparison**: the events are in the queue; a complete comparison without
events marks the root reconciled, an incomplete one leaves its status. -/
theorem settleGap_ok {complete : Bool} {inputs : List WatchEventInput}
    (h : settleGap world complete inputs s = (.ok n, t)) :
    t.appended = s.appended ++ inputs
      ∧ (complete = true → inputs = [] → Reconciled world s t)
      ∧ (complete = false → t.status = s.status) := by
  obtain ⟨u, s₁, hchunks, h⟩ := Prog.bind_eq_ok h
  have hs₁ := forEach_appendChunk hchunks
  rw [flatten_chunks (by decide)] at hs₁
  subst hs₁
  dsimp only at h
  by_cases hempty : inputs.length = 0 ∧ complete = true
  · rw [if_pos hempty] at h
    obtain ⟨u, s₂, hmark, hend⟩ := Prog.bind_eq_ok h
    obtain rfl := (Prod.mk.inj hend).2
    obtain ⟨happended, hreconciled⟩ := markRootReconciled_ok hmark
    exact ⟨happended, fun _ _ => hreconciled, fun hc => absurd (hc.symm.trans hempty.2) nofun⟩
  rw [if_neg hempty] at h
  by_cases hcomplete : complete = true
  · rw [if_pos hcomplete] at h
    obtain ⟨u, s₂, hset, hend⟩ := Prog.bind_eq_ok h
    obtain rfl := (Prod.mk.inj hend).2
    rw [setRootMonitoringStatus_ok hset]
    refine ⟨rfl, fun _ hnil => ?_, fun hc => absurd (hc.symm.trans hcomplete) nofun⟩
    exact absurd ⟨by rw [hnil]; rfl, hcomplete⟩ hempty
  · rw [if_neg hcomplete] at h
    obtain rfl := (Prod.mk.inj h).2
    exact ⟨rfl, fun hc => absurd hc hcomplete, fun _ => rfl⟩

/-! ## A run that was not cancelled -/

/-- What a run that was not cancelled reads. -/
structure GapReads (world : GapWorld) where
  enumeration : Enumeration
  exclusions : List MonitoringExclusion
  catalog : List SnapshotRecord
  source : EventSource
  files : List RootFile
  enumeration_eq : world.enumeration = .ok enumeration
  uncancelled : ¬(enumeration.cancelled = true ∨ world.cancelled = true)
  exclusions_eq : world.exclusions = .ok exclusions
  catalog_eq : world.catalog = .ok catalog
  source_eq : world.source = .ok source
  files_eq : enumeration.files.mapM (EnumeratedFile.below world.rootPath) = some files

/-- The records that are compared. -/
def GapReads.snapshot (reads : GapReads world) : List SnapshotRecord :=
  world.snapshotOf reads.catalog

/-- The enumeration is complete and the snapshot is not truncated. -/
def GapReads.complete (reads : GapReads world) : Bool :=
  isComplete reads.enumeration (decide (world.startupEntryLimit ≤ reads.snapshot.length))

/-- The events about files. -/
def GapReads.fileEvents (reads : GapReads world) : List WatchEventInput :=
  reads.files.flatMap fun file => verdict reads.source world.lower reads.exclusions file
    (heldFor world.lower (collectCurrent world.lower reads.snapshot) reads.files file)

/-- The records that are left, in the order of the map. -/
def GapReads.values (reads : GapReads world) : List SnapshotRecord :=
  world.intoValues (leftRecords world.lower reads.files reads.snapshot)

/-- **What a run that returns leaves behind.** -/
theorem reconcileRootGap_ok (reads : GapReads world) (hnodup : reads.files.Nodup)
    (h : reconcileRootGap world s = (.ok n, t)) :
    (reads.complete = true →
        t.appended = s.appended
          ++ (reads.fileEvents ++ reads.values.map (removedEvent reads.source))
        ∧ (reads.fileEvents ++ reads.values.map (removedEvent reads.source) = [] →
          Reconciled world s t))
      ∧ (reads.complete = false →
        t.appended = s.appended ++ reads.fileEvents ∧ t.status = .overflowed) := by
  obtain ⟨enumeration, henum, h⟩ := lift_bind_eq_ok h
  obtain rfl := Except.ok.inj (reads.enumeration_eq.symm.trans henum)
  rw [if_neg reads.uncancelled] at h
  obtain ⟨exclusions, hexcl, h⟩ := lift_bind_eq_ok h
  obtain rfl := Except.ok.inj (reads.exclusions_eq.symm.trans hexcl)
  obtain ⟨catalog, hcat, h⟩ := lift_bind_eq_ok h
  obtain rfl := Except.ok.inj (reads.catalog_eq.symm.trans hcat)
  obtain ⟨source, hsource, h⟩ := lift_bind_eq_ok h
  obtain rfl := Except.ok.inj (reads.source_eq.symm.trans hsource)
  obtain ⟨files, hfiles, h⟩ := lift_bind_eq_ok h
  obtain rfl := Option.some_inj.1 (reads.files_eq.symm.trans (Checked.orError_eq_ok.1 hfiles))
  dsimp only at h
  rw [foldl_gapTurn _ hnodup] at h
  by_cases hcomplete : reads.complete = true
  · refine ⟨fun _ => ?_, fun hfalse => absurd (hfalse.symm.trans hcomplete) nofun⟩
    rw [GapReads.complete, GapReads.snapshot] at hcomplete
    rw [if_pos hcomplete] at h
    obtain ⟨happended, hreconciled, -⟩ := settleGap_ok h
    exact ⟨happended, hreconciled rfl⟩
  · refine ⟨fun htrue => absurd htrue hcomplete, fun _ => ?_⟩
    rw [GapReads.complete, GapReads.snapshot] at hcomplete
    rw [if_neg hcomplete] at h
    obtain ⟨u, s₁, hset, h⟩ := Prog.bind_eq_ok h
    obtain rfl := setRootMonitoringStatus_ok hset
    obtain ⟨happended, -, hstatus⟩ := settleGap_ok h
    exact ⟨happended, hstatus rfl⟩

/-! ## Exactness -/

/-- **The reconciliation is exact**: with both sides complete its events are the difference, and
where there is none the root is reconciled; with a side incomplete no file is said to be gone, and
the root stays overflowed. -/
def ExactGap (names : VolumeNames world.lower) (reads : GapReads world) (s t : GapState) : Prop :=
  ∃ events, t.appended = s.appended ++ events
    ∧ (reads.complete = true →
      events.Perm
          (difference names reads.source reads.exclusions reads.files reads.snapshot)
        ∧ (difference names reads.source reads.exclusions reads.files reads.snapshot = [] →
          Reconciled world s t))
    ∧ (reads.complete = false →
      (∀ event ∈ events, event.kind ≠ .removed) ∧ t.status = .overflowed)

theorem DistinctNames.take {lower : String → String} {names : VolumeNames lower}
    {files : List RootFile} {catalog : List SnapshotRecord}
    (h : DistinctNames names files catalog) (limit : Nat) :
    DistinctNames names files (catalog.take limit) :=
  ⟨h.files, ((List.take_sublist limit catalog).map _).nodup h.records⟩

theorem GapReads.fileEvents_kind (reads : GapReads world) :
    ∀ event ∈ reads.fileEvents, event.kind ≠ .removed := by
  intro event hevent
  obtain ⟨file, -, hverdict⟩ := List.mem_flatMap.1 hevent
  exact (verdict_tag event hverdict).2

/-- **When a reconciliation is exact.** A run that returns is exact, with both sides complete,
exactly when the paths of every key are told apart; with a side incomplete it always is. -/
theorem exactGap_iff (names : VolumeNames world.lower) (reads : GapReads world)
    (hdistinct : DistinctNames names reads.files reads.catalog)
    (hrun : reconcileRootGap world s = (.ok n, t)) :
    ExactGap names reads s t ↔ (reads.complete = true →
      ∀ key, KeyFaithful names reads.exclusions reads.files reads.snapshot key) := by
  have hdis : DistinctNames names reads.files reads.snapshot := hdistinct.take _
  have hvalues := world.intoValues_perm (leftRecords world.lower reads.files reads.snapshot)
  have hiff := events_perm_difference_iff reads.source reads.exclusions hdis hvalues
  obtain ⟨hcomplete, hincomplete⟩ :=
    reconcileRootGap_ok reads (List.Nodup.of_map _ hdistinct.files) hrun
  by_cases hc : reads.complete = true
  · obtain ⟨happended, hreconciled⟩ := hcomplete hc
    rw [forall_prop_of_true hc, ← hiff]
    constructor
    · rintro ⟨events, hevents, hperm, -⟩
      obtain rfl := List.append_cancel_left (happended.symm.trans hevents)
      exact (hperm hc).1
    · intro hperm
      refine ⟨_, happended, fun _ => ⟨hperm, fun hnone => hreconciled ?_⟩,
        fun hfalse => absurd (hfalse.symm.trans hc) (by simp)⟩
      rw [hnone] at hperm
      exact hperm.eq_nil
  · rw [Bool.not_eq_true] at hc
    obtain ⟨happended, hstatus⟩ := hincomplete hc
    refine iff_of_true ⟨_, happended, fun htrue => absurd (htrue.symm.trans hc) (by simp),
      fun _ => ⟨reads.fileEvents_kind, hstatus⟩⟩ fun htrue => absurd (htrue.symm.trans hc) (by simp)

/-! ## Two roots -/

/-- A root on a case-sensitive volume, with its files and its catalog; every call succeeds. -/
def quietWorld (files : List EnumeratedFile) (catalog : List SnapshotRecord) : GapWorld where
  lower := Organizer.toAsciiLowercase
  rootPath := ["home", "docs"]
  startupEntryLimit := 100
  enumeration := .ok { files := files, issues := [], truncated := false, cancelled := false }
  cancelled := false
  exclusions := .ok []
  catalog := .ok catalog
  source := .ok ⟨"watch-1", 1000⟩
  intoValues := id
  intoValues_perm := fun _ => List.Perm.refl _
  append := fun _ => .ok ()
  setStatus := fun _ => .ok ()
  emptyReconciliation := .ok "scan-1"

/-- A root before its reconciliation. -/
def reconcilingRoot : GapState where
  appended := []
  status := .reconciling
  errorCode := none
  errorMessage := none
  enabled := true
  lastReconciliation := none

/-- What a quiet run reads, for files below its root. -/
def quietReads (files : List EnumeratedFile) (catalog : List SnapshotRecord)
    (below : List RootFile)
    (h : files.mapM (EnumeratedFile.below ["home", "docs"]) = some below) :
    GapReads (quietWorld files catalog) where
  enumeration := { files := files, issues := [], truncated := false, cancelled := false }
  exclusions := []
  catalog := catalog
  source := ⟨"watch-1", 1000⟩
  files := below
  enumeration_eq := rfl
  uncancelled := by simp [quietWorld]
  exclusions_eq := rfl
  catalog_eq := rfl
  source_eq := rfl
  files_eq := h

/-- A changed file, a new one and one that is gone. -/
def changedFiles : List EnumeratedFile :=
  [⟨["home", "docs", "letter.txt"], 20, some 5⟩, ⟨["home", "docs", "new.txt"], 7, none⟩]

def changedCatalog : List SnapshotRecord :=
  [⟨"f1", ["gone.txt"], 3, none⟩, ⟨"f2", ["letter.txt"], 10, some "5"⟩]

/-- The reconciliation of a root whose names differ by more than case is exact. -/
theorem changed_root_exact : ∃ n t,
    reconcileRootGap (quietWorld changedFiles changedCatalog) reconcilingRoot = (.ok n, t)
      ∧ ExactGap (.caseSensitive Organizer.toAsciiLowercase)
        (quietReads changedFiles changedCatalog
          [⟨["letter.txt"], 20, some 5⟩, ⟨["new.txt"], 7, none⟩] rfl) reconcilingRoot t := by
  obtain ⟨n, t, hrun⟩ := Prog.exists_of_isOk (show (reconcileRootGap
    (quietWorld changedFiles changedCatalog) reconcilingRoot).1.isOk = true by decide +kernel)
  have hdistinct : DistinctNames (.caseSensitive Organizer.toAsciiLowercase)
      [⟨["letter.txt"], 20, some 5⟩, ⟨["new.txt"], 7, none⟩] changedCatalog :=
    ⟨by decide +kernel, by decide +kernel⟩
  refine ⟨n, t, hrun, (exactGap_iff (.caseSensitive Organizer.toAsciiLowercase)
    (quietReads changedFiles changedCatalog _ rfl) hdistinct hrun).2 fun _ => ?_⟩
  exact keyFaithful_of_distinctKeys (hdistinct.take _) (by decide +kernel) (by decide +kernel)

/-- Two files whose names differ by case. -/
def twinFiles : List EnumeratedFile :=
  [⟨["home", "docs", "A.txt"], 20, none⟩, ⟨["home", "docs", "a.txt"], 20, none⟩]

def twinCatalog : List SnapshotRecord := [⟨"f1", ["A.txt"], 20, none⟩, ⟨"f2", ["a.txt"], 20, none⟩]

/-- **Names that differ by case**: disk and catalog agree on a case-sensitive root, and yet the
second file is said to be new. -/
theorem twin_root_inexact :
    DistinctNames (.caseSensitive Organizer.toAsciiLowercase)
        [⟨["A.txt"], 20, none⟩, ⟨["a.txt"], 20, none⟩] twinCatalog
      ∧ (reconcileRootGap (quietWorld twinFiles twinCatalog) reconcilingRoot).1 = .ok 1
      ∧ (reconcileRootGap (quietWorld twinFiles twinCatalog) reconcilingRoot).2.appended
        = [foundEvent ⟨"watch-1", 1000⟩ .created ⟨["a.txt"], 20, none⟩]
      ∧ difference (.caseSensitive Organizer.toAsciiLowercase) ⟨"watch-1", 1000⟩ []
          [⟨["A.txt"], 20, none⟩, ⟨["a.txt"], 20, none⟩] twinCatalog = []
      ∧ ¬ExactGap (.caseSensitive Organizer.toAsciiLowercase)
        (quietReads twinFiles twinCatalog [⟨["A.txt"], 20, none⟩, ⟨["a.txt"], 20, none⟩] rfl)
        reconcilingRoot
        (reconcileRootGap (quietWorld twinFiles twinCatalog) reconcilingRoot).2 := by
  have happended : (reconcileRootGap (quietWorld twinFiles twinCatalog) reconcilingRoot).2.appended
      = [foundEvent ⟨"watch-1", 1000⟩ .created ⟨["a.txt"], 20, none⟩] := by decide +kernel
  have hnone : difference (.caseSensitive Organizer.toAsciiLowercase) ⟨"watch-1", 1000⟩ []
      [⟨["A.txt"], 20, none⟩, ⟨["a.txt"], 20, none⟩] twinCatalog = [] := by decide +kernel
  refine ⟨⟨by decide +kernel, by decide +kernel⟩, by decide +kernel, happended, hnone, ?_⟩
  rintro ⟨events, hevents, hcomplete, -⟩
  obtain rfl : [foundEvent ⟨"watch-1", 1000⟩ .created ⟨["a.txt"], 20, none⟩] = events :=
    happended.symm.trans hevents
  have hperm := (hcomplete (by decide +kernel)).1
  exact List.cons_ne_nil _ _ (hnone ▸ hperm).eq_nil

end Zemo.Monitoring
