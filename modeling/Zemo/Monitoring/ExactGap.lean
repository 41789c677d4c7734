import Zemo.Lib.Grouping
import Zemo.Monitoring.Gap

set_option autoImplicit false

/-! # When the comparison with the catalog is exact

The map forgets which of several paths a key came from: the record it holds for a key is the last
one of the catalog, and the first file with the key takes it. The events are the exact difference
when that is the record of the file itself, for every key the catalog has. -/

namespace Zemo.Monitoring

open Scan

/-! ## The loop in closed form -/

section

variable (source : EventSource) (lower : String → String) (exclusions : List MonitoringExclusion)

/-- What the loop does with a file for which the map holds a record, or none. -/
def verdict (file : RootFile) (held : Option SnapshotRecord) : List WatchEventInput :=
  if takenOut lower exclusions file.path then []
  else
    match held with
    | some previous => if unchanged previous file then [] else [foundEvent source .modified file]
    | none => [foundEvent source .created file]

/-- The record the map holds when the loop comes to a file. -/
def heldFor (current : CurrentMap) (files : List RootFile) (file : RootFile) :
    Option SnapshotRecord :=
  if files.find? (fun other => normalizedMonitoringPath lower other.path
      = normalizedMonitoringPath lower file.path) = some file then
    KeyedList.lookup (normalizedMonitoringPath lower file.path) current
  else none

variable {source lower exclusions}

theorem gapTurn_eq (state : CurrentMap × List WatchEventInput) (file : RootFile) :
    gapTurn source lower exclusions state file
      = (KeyedList.remove (normalizedMonitoringPath lower file.path) state.1,
        state.2 ++ verdict source lower exclusions file
          (KeyedList.lookup (normalizedMonitoringPath lower file.path) state.1)) := by
  unfold gapTurn verdict
  by_cases hout : takenOut lower exclusions file.path
  · simp only [hout, if_true, List.append_nil]
  · simp only [hout]
    cases KeyedList.lookup (normalizedMonitoringPath lower file.path) state.1 with
    | none => rfl
    | some previous =>
        by_cases hsame : unchanged previous file
        · simp [hsame]
        · simp [hsame]

/-- **The loop over the files**: what is left of the map, and a verdict for each file. -/
theorem foldl_gapTurn (files : List RootFile) (hnodup : files.Nodup) (current : CurrentMap)
    (events : List WatchEventInput) :
    files.foldl (gapTurn source lower exclusions) (current, events)
      = (current.filter (fun entry => files.all fun file =>
            normalizedMonitoringPath lower file.path ≠ entry.1),
        events ++ files.flatMap fun file =>
          verdict source lower exclusions file (heldFor lower current files file)) := by
  induction files generalizing current events with
  | nil => simp
  | cons first files ih =>
      rw [List.nodup_cons] at hnodup
      rw [List.foldl_cons, gapTurn_eq, ih hnodup.2]
      refine Prod.ext ?_ ?_
      · rw [KeyedList.remove, List.filter_filter]
        refine List.filter_congr fun entry _ => ?_
        simp only [List.all_cons, ne_eq, eq_comm (a := entry.1), Bool.and_comm, decide_not]
      · have hfirst : heldFor lower current (first :: files) first
            = KeyedList.lookup (normalizedMonitoringPath lower first.path) current := by
          unfold heldFor
          rw [if_pos (by simp)]
        have hrest : ∀ file ∈ files,
            heldFor lower (KeyedList.remove (normalizedMonitoringPath lower first.path) current)
                files file
              = heldFor lower current (first :: files) file := by
          intro file hfile
          have hne : first ≠ file := fun heq => hnodup.1 (heq ▸ hfile)
          unfold heldFor
          by_cases hkey : normalizedMonitoringPath lower first.path
              = normalizedMonitoringPath lower file.path
          · have hhead : (first :: files).find? (fun other =>
                normalizedMonitoringPath lower other.path
                  = normalizedMonitoringPath lower file.path) = some first := by
              simp [hkey]
            rw [hhead, if_neg fun h => hne (Option.some_inj.1 h), ← hkey,
              KeyedList.lookup_remove_self, ite_self]
          · rw [List.find?_cons_of_neg (by simpa using hkey),
              KeyedList.lookup_remove_of_ne (Ne.symm hkey)]
        have hevents : (files.flatMap fun file => verdict source lower exclusions file
              (heldFor lower (KeyedList.remove (normalizedMonitoringPath lower first.path) current)
                files file))
            = files.flatMap fun file => verdict source lower exclusions file
              (heldFor lower current (first :: files) file) :=
          List.flatMap_congr fun file hfile => by rw [hrest file hfile]
        dsimp only
        rw [hevents, List.flatMap_cons, hfirst, List.append_assoc]

/-! ## What the map holds -/

theorem collectCurrent_append (snapshot : List SnapshotRecord) (record : SnapshotRecord) :
    collectCurrent lower (snapshot ++ [record])
      = KeyedList.insert (normalizedMonitoringPath lower record.path) record
        (collectCurrent lower snapshot) := by
  rw [collectCurrent, List.foldl_append]
  rfl

theorem keyed_collectCurrent (lower : String → String) (snapshot : List SnapshotRecord) :
    KeyedList.Keyed (collectCurrent lower snapshot) := by
  induction snapshot using List.reverseRecOn with
  | nil => exact KeyedList.Keyed.nil
  | append_singleton snapshot record ih =>
      rw [collectCurrent_append]
      exact ih.insert

/-- **The map holds the last record** of a key. -/
theorem lookup_collectCurrent (snapshot : List SnapshotRecord) (key : Bool × List (List Char)) :
    KeyedList.lookup key (collectCurrent lower snapshot)
      = (snapshot.filter fun record => normalizedMonitoringPath lower record.path = key).getLast? := by
  induction snapshot using List.reverseRecOn with
  | nil => rfl
  | append_singleton snapshot record ih =>
      rw [collectCurrent_append, List.filter_append]
      by_cases hkey : normalizedMonitoringPath lower record.path = key
      · rw [← hkey, KeyedList.lookup_insert_self]
        simp
      · rw [KeyedList.lookup_insert_of_ne (Ne.symm hkey), ih]
        simp [hkey]

end

/-! ## The difference -/

/-- What the volume of a root takes for one name. On a case-sensitive volume that is the name; on
    another, names it takes for one are the same in lower case. -/
structure VolumeNames (lower : String → String) where
  name : RelPath → RelPath
  sameKey : ∀ p q, name p = name q →
    normalizedMonitoringPath lower p = normalizedMonitoringPath lower q
  sameParts : ∀ p q, name p = name q → p.map lower = q.map lower

/-- A case-sensitive volume. -/
def VolumeNames.caseSensitive (lower : String → String) : VolumeNames lower where
  name := id
  sameKey := fun _ _ h => congrArg _ h
  sameParts := fun _ _ h => congrArg _ h

section

variable {lower : String → String} (names : VolumeNames lower) (source : EventSource)
  (exclusions : List MonitoringExclusion) (files : List RootFile) (snapshot : List SnapshotRecord)

/-- The record of a file in the catalog. -/
def ownRecord (file : RootFile) : Option SnapshotRecord :=
  snapshot.find? fun record => names.name record.path = names.name file.path

/-- The file of a record is on disk. -/
def onDisk (record : SnapshotRecord) : Bool :=
  files.any fun file => names.name file.path = names.name record.path

/-- **The difference** of disk and catalog, of what is not taken out: an event for each file that
the catalog does not have or has otherwise, and one for each record whose file is gone. -/
def difference : List WatchEventInput :=
  (files.flatMap fun file =>
      verdict source lower exclusions file (ownRecord names snapshot file))
    ++ (snapshot.filter fun record =>
      !takenOut lower exclusions record.path && !onDisk names files record).map
        (removedEvent source)

/-- The records of a key. -/
def recordsAt (lower : String → String) (snapshot : List SnapshotRecord)
    (key : Bool × List (List Char)) : List SnapshotRecord :=
  snapshot.filter fun record => normalizedMonitoringPath lower record.path = key

/-- The files of a key. -/
def filesAt (lower : String → String) (files : List RootFile)
    (key : Bool × List (List Char)) : List RootFile :=
  files.filter fun file => normalizedMonitoringPath lower file.path = key

/-- **The paths of a key are told apart well enough.** -/
structure KeyFaithful (key : Bool × List (List Char)) : Prop where
  /-- Without a file, the last record is the one that is not taken out. -/
  gone : filesAt lower files key = [] → ∀ last ∈ (recordsAt lower snapshot key).getLast?,
    ∀ record ∈ recordsAt lower snapshot key,
      takenOut lower exclusions record.path = false ↔ record = last
  /-- Where the first file is taken out, every record is. -/
  hidden : ∀ first ∈ (filesAt lower files key).head?,
    takenOut lower exclusions first.path = true →
      ∀ record ∈ recordsAt lower snapshot key, takenOut lower exclusions record.path = true
  /-- Otherwise the first file has the one record that is not taken out, and the last record says
      the same of it. -/
  found : ∀ first ∈ (filesAt lower files key).head?,
    takenOut lower exclusions first.path = false →
      ∀ last ∈ (recordsAt lower snapshot key).getLast?,
        ∃ own ∈ recordsAt lower snapshot key, names.name own.path = names.name first.path
          ∧ (∀ record ∈ recordsAt lower snapshot key,
            takenOut lower exclusions record.path = false → record = own)
          ∧ unchanged own first = unchanged last first

/-- What the comparison relies on: neither side has a name twice. -/
structure DistinctNames : Prop where
  files : (files.map fun file => names.name file.path).Nodup
  records : (snapshot.map fun record => names.name record.path).Nodup

variable {names source exclusions files snapshot}

theorem takenOut_congr {p q : RelPath} (h : names.name p = names.name q) :
    takenOut lower exclusions p = takenOut lower exclusions q := by
  unfold takenOut defaultExcluded userExcluded
  rw [names.sameKey p q h, names.sameParts p q h]

theorem mem_recordsAt {record : SnapshotRecord} {key : Bool × List (List Char)} :
    record ∈ recordsAt lower snapshot key
      ↔ record ∈ snapshot ∧ normalizedMonitoringPath lower record.path = key := by
  rw [recordsAt, List.mem_filter, decide_eq_true_eq]

theorem mem_filesAt {file : RootFile} {key : Bool × List (List Char)} :
    file ∈ filesAt lower files key
      ↔ file ∈ files ∧ normalizedMonitoringPath lower file.path = key := by
  rw [filesAt, List.mem_filter, decide_eq_true_eq]

theorem heldFor_eq (file : RootFile) :
    heldFor lower (collectCurrent lower snapshot) files file
      = if (filesAt lower files (normalizedMonitoringPath lower file.path)).head? = some file then
          (recordsAt lower snapshot (normalizedMonitoringPath lower file.path)).getLast?
        else none := by
  unfold heldFor filesAt recordsAt
  rw [List.head?_filter, lookup_collectCurrent]

theorem DistinctNames.file_eq (h : DistinctNames names files snapshot) {a b : RootFile}
    (ha : a ∈ files) (hb : b ∈ files) (hname : names.name a.path = names.name b.path) : a = b :=
  List.inj_on_of_nodup_map h.files ha hb hname

theorem DistinctNames.record_eq (h : DistinctNames names files snapshot) {a b : SnapshotRecord}
    (ha : a ∈ snapshot) (hb : b ∈ snapshot) (hname : names.name a.path = names.name b.path) :
    a = b :=
  List.inj_on_of_nodup_map h.records ha hb hname

theorem ownRecord_eq_some (h : DistinctNames names files snapshot) {file : RootFile}
    {record : SnapshotRecord} :
    ownRecord names snapshot file = some record
      ↔ record ∈ snapshot ∧ names.name record.path = names.name file.path := by
  constructor
  · intro hfind
    have hname := List.find?_some (p := fun record : SnapshotRecord =>
      decide (names.name record.path = names.name file.path)) hfind
    exact ⟨List.mem_of_find?_eq_some hfind, of_decide_eq_true hname⟩
  · rintro ⟨hmem, hname⟩
    cases hfind : ownRecord names snapshot file with
    | none =>
        have hnone := List.find?_eq_none.1 hfind record hmem
        exact absurd (decide_eq_true hname) hnone
    | some other =>
        have hother := List.mem_of_find?_eq_some hfind
        have hname' := List.find?_some (p := fun record : SnapshotRecord =>
          decide (names.name record.path = names.name file.path)) hfind
        exact congrArg some
          (h.record_eq hother hmem ((of_decide_eq_true hname').trans hname.symm))

theorem onDisk_iff {record : SnapshotRecord} :
    onDisk names files record = true
      ↔ ∃ file ∈ files, names.name file.path = names.name record.path := by
  simp only [onDisk, List.any_eq_true, decide_eq_true_eq]

/-- Two records say the same of a file. -/
def SameVerdict (file : RootFile) (a b : Option SnapshotRecord) : Prop :=
  (a = none ↔ b = none) ∧ ∀ x ∈ a, ∀ y ∈ b, unchanged x file = unchanged y file

theorem verdict_perm_iff {file : RootFile} {a b : Option SnapshotRecord} :
    (verdict source lower exclusions file a).Perm (verdict source lower exclusions file b)
      ↔ (takenOut lower exclusions file.path = false → SameVerdict file a b) := by
  unfold verdict
  by_cases hout : takenOut lower exclusions file.path = true
  · simp [hout]
  · rw [if_neg hout, if_neg hout]
    simp only [Bool.not_eq_true] at hout
    rw [hout]
    unfold SameVerdict
    cases a with
    | none =>
        cases b with
        | none => simp
        | some y => by_cases hy : unchanged y file <;> simp [hy, foundEvent]
    | some x =>
        cases b with
        | none => by_cases hx : unchanged x file <;> simp [hx, foundEvent]
        | some y =>
            by_cases hx : unchanged x file <;> by_cases hy : unchanged y file <;> simp [hx, hy]

theorem mem_recordsAt_of_own (h : DistinctNames names files snapshot) {file : RootFile}
    {record : SnapshotRecord} (hown : ownRecord names snapshot file = some record) :
    record ∈ recordsAt lower snapshot (normalizedMonitoringPath lower file.path)
      ∧ names.name record.path = names.name file.path := by
  obtain ⟨hmem, hname⟩ := (ownRecord_eq_some h).1 hown
  exact ⟨mem_recordsAt.2 ⟨hmem, names.sameKey _ _ hname⟩, hname⟩

variable (lower) in
theorem exists_first {file : RootFile} (hfile : file ∈ files) :
    ∃ first, (filesAt lower files (normalizedMonitoringPath lower file.path)).head?
      = some first := by
  cases hhead : (filesAt lower files (normalizedMonitoringPath lower file.path)).head? with
  | some first => exact ⟨first, rfl⟩
  | none =>
      have hempty := List.head?_eq_none_iff.1 hhead
      have hmem : file ∈ filesAt lower files (normalizedMonitoringPath lower file.path) :=
        mem_filesAt.2 ⟨hfile, rfl⟩
      exact absurd (hempty ▸ hmem) List.not_mem_nil

theorem mem_of_first {first : RootFile} {key : Bool × List (List Char)}
    (h : (filesAt lower files key).head? = some first) :
    first ∈ files ∧ normalizedMonitoringPath lower first.path = key :=
  mem_filesAt.1 (List.mem_of_head? h)

variable (lower) in
theorem exists_last {record : SnapshotRecord} (hrecord : record ∈ snapshot) :
    ∃ last, (recordsAt lower snapshot (normalizedMonitoringPath lower record.path)).getLast?
      = some last := by
  cases hlast : (recordsAt lower snapshot (normalizedMonitoringPath lower record.path)).getLast? with
  | some last => exact ⟨last, rfl⟩
  | none =>
      have hempty := List.getLast?_eq_none_iff.1 hlast
      have hmem : record ∈ recordsAt lower snapshot (normalizedMonitoringPath lower record.path) :=
        mem_recordsAt.2 ⟨hrecord, rfl⟩
      exact absurd (hempty ▸ hmem) List.not_mem_nil

/-- Where the paths of its key are told apart, a file is compared as with its own record. -/
theorem KeyFaithful.sameVerdict (h : DistinctNames names files snapshot) {file : RootFile}
    (hkey : KeyFaithful names exclusions files snapshot (normalizedMonitoringPath lower file.path))
    (hfile : file ∈ files) (hout : takenOut lower exclusions file.path = false) :
    SameVerdict file (heldFor lower (collectCurrent lower snapshot) files file)
      (ownRecord names snapshot file) := by
  have hboth : heldFor lower (collectCurrent lower snapshot) files file = none →
      ownRecord names snapshot file = none →
      SameVerdict file (heldFor lower (collectCurrent lower snapshot) files file)
        (ownRecord names snapshot file) := by
    intro hheld hown
    rw [hheld, hown]
    exact ⟨Iff.rfl, nofun⟩
  obtain ⟨first, hfirst⟩ := exists_first lower hfile
  by_cases hhidden : takenOut lower exclusions first.path = true
  · refine hboth ?_ ?_
    · rw [heldFor_eq, if_neg]
      intro heq
      obtain rfl := Option.some_inj.1 (hfirst.symm.trans heq)
      rw [hout] at hhidden
      exact nomatch hhidden
    · cases hown : ownRecord names snapshot file with
      | none => rfl
      | some record =>
          obtain ⟨hmem, hname⟩ := mem_recordsAt_of_own h hown
          have hrecord := hkey.hidden first hfirst hhidden record hmem
          rw [takenOut_congr hname, hout] at hrecord
          exact nomatch hrecord
  rw [Bool.not_eq_true] at hhidden
  cases hlast : (recordsAt lower snapshot (normalizedMonitoringPath lower file.path)).getLast? with
  | none =>
      refine hboth (by rw [heldFor_eq, hlast, ite_self]) ?_
      cases hown : ownRecord names snapshot file with
      | none => rfl
      | some record =>
          have hmem := (mem_recordsAt_of_own h hown).1
          rw [List.getLast?_eq_none_iff.1 hlast] at hmem
          exact absurd hmem List.not_mem_nil
  | some last =>
      obtain ⟨own, hmem, hname, honly, hsame⟩ := hkey.found first hfirst hhidden last hlast
      by_cases heq : first = file
      · subst heq
        have hown := (ownRecord_eq_some h).2 ⟨(mem_recordsAt.1 hmem).1, hname⟩
        rw [heldFor_eq, if_pos hfirst, hlast, hown]
        refine ⟨iff_of_false nofun nofun, fun x hx y hy => ?_⟩
        obtain rfl := Option.some_inj.1 hx
        obtain rfl := Option.some_inj.1 hy
        exact hsame.symm
      · refine hboth ?_ ?_
        · rw [heldFor_eq, if_neg]
          exact fun hhead => heq (Option.some_inj.1 (hfirst.symm.trans hhead))
        · cases hown : ownRecord names snapshot file with
          | none => rfl
          | some record =>
              obtain ⟨hrecord, hsome⟩ := mem_recordsAt_of_own h hown
              obtain rfl := honly record hrecord (by rw [takenOut_congr hsome, hout])
              exact absurd (h.file_eq (mem_of_first hfirst).1 hfile (hname.symm.trans hsome)) heq

/-- A file of a key that is not on disk: no file has the key. -/
theorem onDisk_eq_false_of_filesAt {record : SnapshotRecord}
    (h : filesAt lower files (normalizedMonitoringPath lower record.path) = []) :
    onDisk names files record = false := by
  rw [Bool.eq_false_iff]
  intro hdisk
  obtain ⟨file, hfile, hname⟩ := onDisk_iff.1 hdisk
  have hmem : file ∈ filesAt lower files (normalizedMonitoringPath lower record.path) :=
    mem_filesAt.2 ⟨hfile, names.sameKey _ _ hname⟩
  exact absurd (h ▸ hmem) List.not_mem_nil

/-- Where the paths of its key are told apart, a record is left exactly when its file is gone. -/
theorem KeyFaithful.left_iff {record : SnapshotRecord}
    (hkey : KeyFaithful names exclusions files snapshot
      (normalizedMonitoringPath lower record.path))
    (hrecord : record ∈ snapshot) :
    ((recordsAt lower snapshot (normalizedMonitoringPath lower record.path)).getLast? = some record
        ∧ filesAt lower files (normalizedMonitoringPath lower record.path) = [])
      ↔ takenOut lower exclusions record.path = false ∧ onDisk names files record = false := by
  have hmem : record ∈ recordsAt lower snapshot (normalizedMonitoringPath lower record.path) :=
    mem_recordsAt.2 ⟨hrecord, rfl⟩
  obtain ⟨last, hlast⟩ := exists_last lower hrecord
  cases hfirst : (filesAt lower files (normalizedMonitoringPath lower record.path)).head? with
  | none =>
      have hnone := List.head?_eq_none_iff.1 hfirst
      have hgone := hkey.gone hnone last hlast record hmem
      rw [hlast, Option.some_inj, hgone, eq_comm (a := last)]
      exact and_congr_right fun _ => iff_of_true hnone (onDisk_eq_false_of_filesAt hnone)
  | some first =>
      refine iff_of_false ?_ ?_
      · rintro ⟨-, hnone⟩
        rw [hnone] at hfirst
        cases hfirst
      · rintro ⟨hout, hdisk⟩
        by_cases hhidden : takenOut lower exclusions first.path = true
        · rw [hkey.hidden first hfirst hhidden record hmem] at hout
          cases hout
        · rw [Bool.not_eq_true] at hhidden
          obtain ⟨own, -, hname, honly, -⟩ := hkey.found first hfirst hhidden last hlast
          obtain rfl := honly record hmem hout
          rw [onDisk_iff.2 ⟨first, (mem_of_first hfirst).1, hname.symm⟩] at hdisk
          cases hdisk

/-- Paths whose files are compared as with their own records, and whose records are left exactly
when their files are gone, are told apart. -/
theorem keyFaithful_of_verdicts (h : DistinctNames names files snapshot)
    (hfiles : ∀ file ∈ files, takenOut lower exclusions file.path = false →
      SameVerdict file (heldFor lower (collectCurrent lower snapshot) files file)
        (ownRecord names snapshot file))
    (hrecords : ∀ record ∈ snapshot,
      ((recordsAt lower snapshot (normalizedMonitoringPath lower record.path)).getLast?
            = some record
          ∧ filesAt lower files (normalizedMonitoringPath lower record.path) = [])
        ↔ takenOut lower exclusions record.path = false ∧ onDisk names files record = false)
    (key : Bool × List (List Char)) : KeyFaithful names exclusions files snapshot key := by
  -- A record that is not taken out, of a key that has a file, is the record of the first file.
  have hown (first : RootFile) (hfirst : (filesAt lower files key).head? = some first)
      (record : SnapshotRecord) (hrecord : record ∈ recordsAt lower snapshot key)
      (hout : takenOut lower exclusions record.path = false) :
      names.name record.path = names.name first.path := by
    obtain ⟨hmem, rfl⟩ := mem_recordsAt.1 hrecord
    have hdisk : onDisk names files record = true := by
      by_contra hnot
      rw [Bool.not_eq_true] at hnot
      have hleft := ((hrecords record hmem).2 ⟨hout, hnot⟩).2
      rw [hleft] at hfirst
      exact nomatch hfirst
    obtain ⟨file, hfile, hname⟩ := onDisk_iff.1 hdisk
    have hfileout : takenOut lower exclusions file.path = false := by
      rw [takenOut_congr hname, hout]
    have hsome := (ownRecord_eq_some h).2 ⟨hmem, hname.symm⟩
    have hverdict := (hfiles file hfile hfileout).1
    rw [hsome, heldFor_eq, names.sameKey _ _ hname, hfirst] at hverdict
    by_cases heq : first = file
    · exact heq ▸ hname.symm
    · rw [if_neg fun hsame => heq (Option.some_inj.1 hsame)] at hverdict
      exact nomatch hverdict.1 rfl
  refine ⟨fun hnone last hlast record hrecord => ?_, fun first hfirst hout record hrecord => ?_,
    fun first hfirst hout last hlast => ?_⟩
  · obtain ⟨hmem, rfl⟩ := mem_recordsAt.1 hrecord
    have hiff := hrecords record hmem
    rw [Option.mem_def.1 hlast, Option.some_inj, and_iff_left hnone,
      and_iff_left (onDisk_eq_false_of_filesAt hnone)] at hiff
    exact hiff.symm.trans eq_comm
  · by_contra hnot
    rw [Bool.not_eq_true] at hnot
    rw [← takenOut_congr (hown first hfirst record hrecord hnot), hnot] at hout
    exact nomatch hout
  · obtain ⟨hmem, rfl⟩ := mem_of_first hfirst
    have hverdict := hfiles first hmem hout
    rw [heldFor_eq, if_pos (Option.mem_def.1 hfirst), Option.mem_def.1 hlast] at hverdict
    cases hsome : ownRecord names snapshot first with
    | none => exact nomatch hverdict.1.2 hsome
    | some own =>
        obtain ⟨hrecord, hname⟩ := mem_recordsAt_of_own h hsome
        refine ⟨own, hrecord, hname, fun record hmem' hout' => ?_, ?_⟩
        · have hname' := hown first hfirst record hmem' hout'
          exact h.record_eq (mem_recordsAt.1 hmem').1 (mem_recordsAt.1 hrecord).1
            (hname'.trans hname.symm)
        · exact (hverdict.2 last rfl own hsome).symm

/-- Paths are told apart where no two names have one key, and no record is taken out whose file is
gone. -/
theorem keyFaithful_of_distinctKeys (h : DistinctNames names files snapshot)
    (hkeys : ∀ p ∈ files.map (·.path) ++ snapshot.map (·.path),
      ∀ q ∈ files.map (·.path) ++ snapshot.map (·.path),
        normalizedMonitoringPath lower p = normalizedMonitoringPath lower q →
          names.name p = names.name q)
    (hgone : ∀ record ∈ snapshot, takenOut lower exclusions record.path = true →
      onDisk names files record = true)
    (key : Bool × List (List Char)) : KeyFaithful names exclusions files snapshot key := by
  have hfile (file : RootFile) (hfile : file ∈ files) :
      file.path ∈ files.map (·.path) ++ snapshot.map (·.path) :=
    List.mem_append_left _ (List.mem_map_of_mem hfile)
  have hrecord (record : SnapshotRecord) (hrecord : record ∈ snapshot) :
      record.path ∈ files.map (·.path) ++ snapshot.map (·.path) :=
    List.mem_append_right _ (List.mem_map_of_mem hrecord)
  have hsame (a b : SnapshotRecord) (ha : a ∈ recordsAt lower snapshot key)
      (hb : b ∈ recordsAt lower snapshot key) : a = b := by
    obtain ⟨ha, hakey⟩ := mem_recordsAt.1 ha
    obtain ⟨hb, hbkey⟩ := mem_recordsAt.1 hb
    exact h.record_eq ha hb
      (hkeys _ (hrecord a ha) _ (hrecord b hb) (hakey.trans hbkey.symm))
  have hown (first : RootFile) (hfirst : (filesAt lower files key).head? = some first)
      (record : SnapshotRecord) (hmem : record ∈ recordsAt lower snapshot key) :
      names.name record.path = names.name first.path := by
    obtain ⟨hfirst, hfkey⟩ := mem_of_first hfirst
    obtain ⟨hmem, hrkey⟩ := mem_recordsAt.1 hmem
    exact hkeys _ (hrecord record hmem) _ (hfile first hfirst) (hrkey.trans hfkey.symm)
  refine ⟨fun hnone last hlast record hmem => ?_, fun first hfirst hout record hmem => ?_,
    fun first hfirst hout last hlast => ?_⟩
  · refine iff_of_true ?_ (hsame record last hmem (List.mem_of_getLast? hlast))
    obtain ⟨hsnap, rfl⟩ := mem_recordsAt.1 hmem
    rw [Bool.eq_false_iff]
    intro hout
    cases (hgone record hsnap hout).symm.trans (onDisk_eq_false_of_filesAt hnone)
  · rw [takenOut_congr (hown first hfirst record hmem), hout]
  · have hmem := List.mem_of_getLast? hlast
    exact ⟨last, hmem, hown first hfirst last hmem, fun record hrecord _ =>
      hsame record last hrecord hmem, rfl⟩

/-! ## The events of a comparison -/

theorem eventPath_injective : Function.Injective eventPath :=
  List.map_injective_iff.2 fun _ _ h => PathComponent.normal.inj h

theorem verdict_tag {file : RootFile} {held : Option SnapshotRecord} :
    ∀ event ∈ verdict source lower exclusions file held,
      event.pathAfter = some (eventPath file.path) ∧ event.kind ≠ .removed := by
  unfold verdict
  split
  · exact fun _ h => absurd h List.not_mem_nil
  · split
    · split
      · exact fun _ h => absurd h List.not_mem_nil
      · intro event hevent
        obtain rfl := List.mem_singleton.1 hevent
        exact ⟨rfl, nofun⟩
    · intro event hevent
      obtain rfl := List.mem_singleton.1 hevent
      exact ⟨rfl, nofun⟩

theorem removed_tag {records : List SnapshotRecord} :
    ∀ event ∈ records.map (removedEvent source), event.pathAfter = none := by
  intro event hevent
  obtain ⟨record, -, rfl⟩ := List.mem_map.1 hevent
  rfl

theorem DistinctNames.paths_nodup (h : DistinctNames names files snapshot) :
    (files.map fun file => eventPath file.path).Nodup := by
  refine (List.Nodup.of_map _ h.files).map_on fun a ha b hb hpath => ?_
  exact h.file_eq ha hb (congrArg names.name (eventPath_injective hpath))

/-- The records that are left of the map after the loop. -/
def leftRecords (lower : String → String) (files : List RootFile)
    (snapshot : List SnapshotRecord) : List SnapshotRecord :=
  ((collectCurrent lower snapshot).filter fun entry => files.all fun file =>
    normalizedMonitoringPath lower file.path ≠ entry.1).map Prod.snd

theorem mem_collectCurrent {key : Bool × List (List Char)} {record : SnapshotRecord} :
    (key, record) ∈ collectCurrent lower snapshot
      ↔ (recordsAt lower snapshot key).getLast? = some record := by
  rw [(keyed_collectCurrent lower snapshot).mem_iff_lookup, lookup_collectCurrent]
  rfl

theorem mem_leftRecords {record : SnapshotRecord} :
    record ∈ leftRecords lower files snapshot
      ↔ record ∈ snapshot
        ∧ (recordsAt lower snapshot (normalizedMonitoringPath lower record.path)).getLast?
            = some record
        ∧ filesAt lower files (normalizedMonitoringPath lower record.path) = [] := by
  have hnone (key : Bool × List (List Char)) :
      (files.all fun file => normalizedMonitoringPath lower file.path ≠ key) = true
        ↔ filesAt lower files key = [] := by
    simp [filesAt, List.filter_eq_nil_iff]
  constructor
  · intro hmem
    obtain ⟨⟨key, record⟩, hentry, rfl⟩ := List.mem_map.1 hmem
    obtain ⟨hcurrent, hleft⟩ := List.mem_filter.1 hentry
    have hlast := mem_collectCurrent.1 hcurrent
    obtain ⟨hrecord, rfl⟩ := mem_recordsAt.1 (List.mem_of_getLast? hlast)
    exact ⟨hrecord, hlast, (hnone _).1 hleft⟩
  · rintro ⟨-, hlast, hleft⟩
    exact List.mem_map.2 ⟨(normalizedMonitoringPath lower record.path, record),
      List.mem_filter.2 ⟨mem_collectCurrent.2 hlast, (hnone _).2 hleft⟩, rfl⟩

theorem nodup_leftRecords : (leftRecords lower files snapshot).Nodup := by
  have hkeyed := (keyed_collectCurrent lower snapshot).filter fun entry =>
    files.all fun file => normalizedMonitoringPath lower file.path ≠ entry.1
  -- The key of an entry is that of its record, so entries with one record are one entry.
  have hkey : ∀ entry ∈ (collectCurrent lower snapshot).filter (fun entry => files.all fun file =>
      normalizedMonitoringPath lower file.path ≠ entry.1),
      entry.1 = normalizedMonitoringPath lower entry.2.path := by
    rintro ⟨key, record⟩ hentry
    have hlast := mem_collectCurrent.1 (List.mem_filter.1 hentry).1
    exact (mem_recordsAt.1 (List.mem_of_getLast? hlast)).2.symm
  refine (List.Nodup.of_map _ hkeyed).map_on fun a ha b hb hrecord => ?_
  exact Prod.ext (by rw [hkey a ha, hkey b hb, hrecord]) hrecord

/-- **The events of a comparison are the difference** exactly when the paths are told apart. -/
theorem events_perm_difference_iff (source : EventSource)
    (exclusions : List MonitoringExclusion) (h : DistinctNames names files snapshot)
    {values : List SnapshotRecord} (hvalues : values.Perm (leftRecords lower files snapshot)) :
    ((files.flatMap fun file => verdict source lower exclusions file
            (heldFor lower (collectCurrent lower snapshot) files file))
          ++ values.map (removedEvent source)).Perm
        (difference names source exclusions files snapshot)
      ↔ ∀ key, KeyFaithful names exclusions files snapshot key := by
  have hgone : (snapshot.filter fun record =>
      !takenOut lower exclusions record.path && !onDisk names files record).Nodup :=
    (List.Nodup.of_map _ h.records).filter _
  have hinj {l : List SnapshotRecord} (hl : l ⊆ snapshot) (hnodup : l.Nodup) :
      (l.map (removedEvent source)).Nodup := by
    refine hnodup.map_on fun a ha b hb hevent => h.record_eq (hl ha) (hl hb) ?_
    have hpath := Option.some_inj.1 (congrArg WatchEventInput.pathBefore hevent)
    exact congrArg names.name (eventPath_injective hpath)
  have hleft : leftRecords lower files snapshot ⊆ snapshot := fun _ hr => (mem_leftRecords.1 hr).1
  -- The events of records are compared by their records.
  have hremoved : (values.map (removedEvent source)).Perm ((snapshot.filter fun record =>
        !takenOut lower exclusions record.path && !onDisk names files record).map
          (removedEvent source))
      ↔ ∀ record ∈ snapshot, record ∈ leftRecords lower files snapshot
        ↔ takenOut lower exclusions record.path = false
          ∧ onDisk names files record = false := by
    have hmem (l : List SnapshotRecord) (hl : l ⊆ snapshot) (record : SnapshotRecord)
        (hrecord : record ∈ snapshot) :
        removedEvent source record ∈ l.map (removedEvent source) ↔ record ∈ l := by
      refine ⟨fun hevent => ?_, List.mem_map_of_mem⟩
      obtain ⟨other, hother, heq⟩ := List.mem_map.1 hevent
      have hpath := Option.some_inj.1 (congrArg WatchEventInput.pathBefore heq)
      exact h.record_eq (hl hother) hrecord
        (congrArg names.name (eventPath_injective hpath)) ▸ hother
    rw [((hvalues.map _).trans (List.Perm.refl _)).congr_left,
      List.perm_ext_iff_of_nodup (hinj hleft nodup_leftRecords)
        (hinj (List.filter_subset_self _) hgone)]
    constructor
    · intro hall record hrecord
      have := hall (removedEvent source record)
      rw [hmem _ hleft record hrecord, hmem _ (List.filter_subset_self _) record hrecord,
        List.mem_filter, and_iff_right hrecord] at this
      simpa using this
    · intro hall event
      constructor
      · intro hevent
        obtain ⟨record, hrecord, rfl⟩ := List.mem_map.1 hevent
        refine List.mem_map_of_mem (List.mem_filter.2 ⟨hleft hrecord, ?_⟩)
        simpa using (hall record (hleft hrecord)).1 hrecord
      · intro hevent
        obtain ⟨record, hrecord, rfl⟩ := List.mem_map.1 hevent
        obtain ⟨hrecord, hboth⟩ := List.mem_filter.1 hrecord
        exact List.mem_map_of_mem ((hall record hrecord).2 (by simpa using hboth))
  rw [difference, Tagged.perm_iff WatchEventInput.pathAfter h.paths_nodup
    (fun _ _ event hevent => (verdict_tag event hevent).1)
    (fun _ _ event hevent => (verdict_tag event hevent).1) removed_tag removed_tag, hremoved]
  simp only [verdict_perm_iff]
  constructor
  · rintro ⟨hfiles, hrecords⟩
    refine keyFaithful_of_verdicts h hfiles fun record hrecord => ?_
    rw [← hrecords record hrecord, mem_leftRecords, and_iff_right hrecord]
  · intro hkeys
    refine ⟨fun file hfile => (hkeys _).sameVerdict h hfile, fun record hrecord => ?_⟩
    rw [← (hkeys _).left_iff hrecord, mem_leftRecords, and_iff_right hrecord]

end

end Zemo.Monitoring
