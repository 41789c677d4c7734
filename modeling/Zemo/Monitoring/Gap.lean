import Zemo.Lib.KeyedList
import Zemo.Monitoring.Cycle

set_option autoImplicit false

/-! # Reconciling a root with the catalog

At the start, and when a watcher lost track, the files of a root are enumerated and compared with
the catalog; what differs is given to the queue as events. The catalog is looked up through a map
whose keys are normalized paths. -/

namespace Zemo.Monitoring

open Scan

/-! ## What is compared -/

/-- `ReadOnlyEntry` of an enumeration: the components of its path, and what is compared. -/
structure EnumeratedFile where
  absolutePath : List String
  byteSize : Nat
  modifiedAtNs : Option Int
deriving DecidableEq

/-- `ReadOnlyEnumeration`. -/
structure Enumeration where
  files : List EnumeratedFile
  issues : List Scan.PlatformError
  truncated : Bool
  cancelled : Bool
deriving DecidableEq

/-- A file of the enumeration, by its path below the root. -/
structure RootFile where
  path : RelPath
  byteSize : Nat
  modifiedAtNs : Option Int
deriving DecidableEq

/-- `CatalogSnapshotRecord`. -/
structure SnapshotRecord where
  fileId : String
  path : RelPath
  byteSize : Nat
  modifiedAtNs : Option String
deriving DecidableEq

/-- `strip_prefix` of the root. -/
def EnumeratedFile.below (rootPath : List String) (file : EnumeratedFile) : Option RootFile :=
  if rootPath <+: file.absolutePath then
    some ⟨file.absolutePath.drop rootPath.length, file.byteSize, file.modifiedAtNs⟩
  else none

/-- The catalog has the file as it was found. -/
def unchanged (previous : SnapshotRecord) (file : RootFile) : Bool :=
  previous.byteSize = file.byteSize && previous.modifiedAtNs = file.modifiedAtNs.map toString

/-! ## Exclusions -/

inductive MonitoringExclusionKind where
  | pathPrefix
  | extension
deriving DecidableEq, Repr

structure MonitoringExclusion where
  kind : MonitoringExclusionKind
  value : String
  enabled : Bool
deriving DecidableEq

/-- Endings of the names that are never followed. -/
def temporaryEndings : List String :=
  ["~", ".tmp", ".temp", ".part", ".partial", ".crdownload", ".swp"]

def excludedComponents : List String :=
  [".git", ".svn", ".hg", "node_modules", "target", "cache", "caches", "tmp", "temp",
    "$recycle.bin", "system volume information", ".supremacy-staging"]

section

variable (lower : String → String)

/-- `default_excluded`. -/
def defaultExcluded (path : RelPath) : Bool :=
  let components := path.map lower
  match components.getLast? with
  | none => true
  | some filename =>
      Organizer.startsWith filename "." || Organizer.startsWith filename "~$"
        || temporaryEndings.any (Organizer.endsWith filename)
        || components.any fun component =>
          component ∈ excludedComponents || Organizer.endsWith component ".app"

/-- `Path::extension` of a path given by its parts. -/
def pathExtension (parts : List (List Char)) : Option (List Char) :=
  match parts.getLast? with
  | none => none
  | some name =>
      if name = ['.', '.'] ∨ '.' ∉ name.tail then none
      else some (name.rtakeWhile (· ≠ '.'))

/-- `strip_prefix` of a path given by its parts, and whether it is absolute. -/
def isBelow (start path : Bool × List (List Char)) : Bool :=
  if start.1 then path.1 && decide (start.2 <+: path.2)
  else decide (start.2 = []) || (!path.1 && decide (start.2 <+: path.2))

/-- An exclusion of the user takes a path out. -/
def MonitoringExclusion.matches (exclusion : MonitoringExclusion)
    (normalized : Bool × List (List Char)) : Bool :=
  match exclusion.kind with
  | .pathPrefix =>
      let start := normalizedMonitoringPath lower [exclusion.value]
      decide (normalized = start) || isBelow start normalized
  | .extension =>
      match pathExtension normalized.2 with
      | none => false
      | some ext => ext.map Char.toLower = exclusion.value.toList.map Char.toLower

/-- `user_excluded`. -/
def userExcluded (path : RelPath) (exclusions : List MonitoringExclusion) : Bool :=
  let normalized := normalizedMonitoringPath lower path
  (exclusions.filter (·.enabled)).any (·.matches lower normalized)

/-- The reconciliation takes a path out. -/
def takenOut (exclusions : List MonitoringExclusion) (path : RelPath) : Bool :=
  defaultExcluded lower path || userExcluded lower path exclusions

end

/-! ## The comparison -/

/-- `MAXIMUM_ATTEMPTS`. -/
def maximumAttempts : Nat := 8

/-- `MAX_STARTUP_ENTRY_LIMIT`. -/
def maxStartupEntryLimit : Nat := 1000000

/-- The registration and the time that the events of a reconciliation carry. -/
structure EventSource where
  registrationId : String
  readyAtUnixMs : Int

variable (source : EventSource)

/-- A path as the components of an event. -/
def eventPath (path : RelPath) : List PathComponent := path.map .normal

/-- The event about a file that is there. -/
def foundEvent (kind : WatchEventKind) (file : RootFile) : WatchEventInput where
  registrationId := source.registrationId
  kind := kind
  scope := .file
  pathBefore := none
  pathAfter := some (eventPath file.path)
  debounceReadyAtUnixMs := source.readyAtUnixMs
  maximumAttempts := maximumAttempts

/-- The event about a file that is gone. -/
def removedEvent (previous : SnapshotRecord) : WatchEventInput where
  registrationId := source.registrationId
  kind := .removed
  scope := .file
  pathBefore := some (eventPath previous.path)
  pathAfter := none
  debounceReadyAtUnixMs := source.readyAtUnixMs
  maximumAttempts := maximumAttempts

/-- The map of the catalog: normalized paths to records. -/
abbrev CurrentMap := List ((Bool × List (List Char)) × SnapshotRecord)

variable (lower : String → String) (exclusions : List MonitoringExclusion)

/-- `collect` of the snapshot: a later record takes the place of one with the same key. -/
def collectCurrent (snapshot : List SnapshotRecord) : CurrentMap :=
  snapshot.foldl (fun current record =>
    KeyedList.insert (normalizedMonitoringPath lower record.path) record current) []

/-- One turn of the loop over the files: the map and the events after it. -/
def gapTurn (state : CurrentMap × List WatchEventInput) (file : RootFile) :
    CurrentMap × List WatchEventInput :=
  let key := normalizedMonitoringPath lower file.path
  let rest := KeyedList.remove key state.1
  if takenOut lower exclusions file.path then (rest, state.2)
  else
    match KeyedList.lookup key state.1 with
    | some previous =>
        if unchanged previous file then (rest, state.2)
        else (rest, state.2 ++ [foundEvent source .modified file])
    | none => (rest, state.2 ++ [foundEvent source .created file])

/-! ## The reconciliation -/

inductive MonitoringRootStatus where
  | starting | active | paused | reconciling | overflowed | offline | failed | stopped
deriving DecidableEq, Repr

deriving instance DecidableEq for WatchEventInput

/-- What a reconciliation writes: the events it gives to the queue, and the row of its root. -/
structure GapState where
  appended : List WatchEventInput
  status : MonitoringRootStatus
  errorCode : Option String
  errorMessage : Option String
  enabled : Bool
  lastReconciliation : Option String
deriving DecidableEq

/-- What a reconciliation meets: the files, the catalog, and how the calls of the store end. -/
structure GapWorld where
  lower : String → String
  rootPath : List String
  startupEntryLimit : Nat
  enumeration : Except CycleError Enumeration
  cancelled : Bool
  exclusions : Except CycleError (List MonitoringExclusion)
  /-- The current rows of the catalog, in the order of their normalized path. -/
  catalog : Except CycleError (List SnapshotRecord)
  source : Except CycleError EventSource
  /-- `HashMap::into_values`, in whatever order. -/
  intoValues : List SnapshotRecord → List SnapshotRecord
  intoValues_perm : ∀ records, (intoValues records).Perm records
  append : List WatchEventInput → Except CycleError Unit
  setStatus : MonitoringRootStatus → Except CycleError Unit
  /-- `persist_empty_reconciliation` and `mark_root_reconciled`. -/
  emptyReconciliation : Except CycleError String

/-- `chunks`, for as many chunks as there may be. -/
def chunksUpTo {α : Type} (size : Nat) : Nat → List α → List (List α)
  | 0, _ => []
  | _ + 1, [] => []
  | count + 1, a :: rest => (a :: rest).take size :: chunksUpTo size count ((a :: rest).drop size)

/-- `chunks`. -/
def chunks {α : Type} (size : Nat) (members : List α) : List (List α) :=
  chunksUpTo size members.length members

theorem flatten_chunksUpTo {α : Type} {size : Nat} (hsize : 0 < size) (count : Nat)
    (members : List α) (h : members.length ≤ count) :
    (chunksUpTo size count members).flatten = members := by
  induction count generalizing members with
  | zero =>
      rw [List.length_eq_zero_iff.1 (Nat.le_zero.1 h)]
      rfl
  | succ count ih =>
      cases members with
      | nil => rfl
      | cons a rest =>
          have hrest : ((a :: rest).drop size).length ≤ count := by
            rw [List.length_drop]
            omega
          rw [chunksUpTo, List.flatten_cons, ih _ hrest, List.take_append_drop]

theorem flatten_chunks {α : Type} {size : Nat} (hsize : 0 < size) (members : List α) :
    (chunks size members).flatten = members :=
  flatten_chunksUpTo hsize _ members le_rfl

variable (world : GapWorld)

/-- `catalog_snapshot_for_root`. -/
def GapWorld.snapshotOf (catalog : List SnapshotRecord) : List SnapshotRecord :=
  catalog.take (max 1 (min world.startupEntryLimit maxStartupEntryLimit))

/-- `set_root_monitoring_status`. -/
def setRootMonitoringStatus (status : MonitoringRootStatus) (errorCode errorMessage : Option String) :
    Prog GapState CycleError Unit := do
  Prog.lift (world.setStatus status)
  Prog.modifies fun state =>
    { state with status := status, errorCode := errorCode, errorMessage := errorMessage }

/-- `append_watch_events_and_coalesce`, for one chunk. -/
def appendChunk (chunk : List WatchEventInput) : Prog GapState CycleError Unit := do
  Prog.lift (world.append chunk)
  Prog.modifies fun state => { state with appended := state.appended ++ chunk }

/-- `mark_root_reconciled`, after `persist_empty_reconciliation`. -/
def markRootReconciled : Prog GapState CycleError Unit := do
  let scanId ← Prog.lift world.emptyReconciliation
  Prog.modifies fun state =>
    { state with
      status := if state.enabled then .active else .paused
      errorCode := none
      errorMessage := none
      lastReconciliation := some scanId }

/-- Neither side is known to be incomplete. -/
def isComplete (enumeration : Enumeration) (catalogTruncated : Bool) : Bool :=
  !enumeration.truncated && enumeration.issues.isEmpty && !catalogTruncated

/-- The part of `reconcile_root_gap` after the comparison. -/
def settleGap (complete : Bool) (inputs : List WatchEventInput) :
    Prog GapState CycleError Nat := do
  Prog.forEach (appendChunk world) (chunks maximumJobBatch inputs)
  if inputs.length = 0 ∧ complete then markRootReconciled world
  else if complete then setRootMonitoringStatus world .reconciling none none
  else pure ()
  return min inputs.length (2 ^ 64 - 1)

/-- The comparison of `reconcile_root_gap`, and what comes after it. -/
def compareGap (enumeration : Enumeration) : Prog GapState CycleError Nat := do
  let exclusions ← Prog.lift world.exclusions
  let catalog ← Prog.lift world.catalog
  let source ← Prog.lift world.source
  let files ← Prog.lift (Checked.orError
    (enumeration.files.mapM (EnumeratedFile.below world.rootPath)) (.catalog .outsideRoot))
  let snapshot := world.snapshotOf catalog
  let complete := isComplete enumeration (decide (world.startupEntryLimit ≤ snapshot.length))
  let compared := files.foldl (gapTurn source world.lower exclusions)
    (collectCurrent world.lower snapshot, [])
  if complete then
    settleGap world true (compared.2
      ++ (world.intoValues (compared.1.map Prod.snd)).map (removedEvent source))
  else do
    setRootMonitoringStatus world .overflowed (some "bounded_reconciliation")
      (some "Startup reconciliation was bounded; absence was not inferred.")
    settleGap world false compared.2

/-- `reconcile_root_gap`. -/
def reconcileRootGap : Prog GapState CycleError Nat := do
  let enumeration ← Prog.lift world.enumeration
  if enumeration.cancelled ∨ world.cancelled then return 0
  else compareGap world enumeration

end Zemo.Monitoring
