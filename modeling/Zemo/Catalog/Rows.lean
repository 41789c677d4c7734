import Zemo.Domain.Proposal
import Zemo.Lib.Versioned

set_option autoImplicit false

/-! # The catalog

The files of a workspace, the native identities they were recognised by and the places they were
seen at. A scan stores what it observed, file by file; a path that is gone is marked missing. A row
of the identities and the locations is current until a scan closes it.

Left out are the contents and versions of a file, except that a version refers to the identity and
the location it was stored with. -/

namespace Zemo.Catalog

open Checked Versioned

inductive CatalogError where
  | invalidNativePath
  | invalidMonitoringInput
  | sqlite
deriving DecidableEq, Repr

/-! ## Paths -/

/-- `String::from_utf16`, on the code units. -/
def decodeUtf16 : List Nat → Option (List Char)
  | [] => some []
  | unit :: rest =>
      if unit < 0xD800 ∨ 0xE000 ≤ unit then (decodeUtf16 rest).map (Char.ofNat unit :: ·)
      else
        match rest with
        | [] => none
        | low :: rest =>
            if unit < 0xDC00 ∧ 0xDC00 ≤ low ∧ low < 0xE000 then
              (decodeUtf16 rest).map
                (Char.ofNat (0x10000 + (unit - 0xD800) * 0x400 + (low - 0xDC00)) :: ·)
            else none

/-- `char::encode_utf16`. -/
def encodeUtf16 (c : Char) : List Nat :=
  if c.toNat < 0x10000 then [c.toNat]
  else [0xD800 + (c.toNat - 0x10000) / 0x400, 0xDC00 + (c.toNat - 0x10000) % 0x400]

/-- `chunks_exact(2)` with `u16::from_le_bytes`; none when a byte is left over. -/
def utf16LeUnits : List UInt8 → Option (List Nat)
  | [] => some []
  | [_] => none
  | low :: high :: rest => (utf16LeUnits rest).map fun units =>
      (low.toNat + 256 * high.toNat) :: units

def utf16LeBytes (unit : Nat) : List UInt8 := [UInt8.ofNat (unit % 256), UInt8.ofNat (unit / 256)]

/-- The text of a path, when it is one. -/
def nativeText (path : NativePath) : Option (List Char) :=
  match path.encoding with
  | .unixBytes => (String.fromUTF8? ⟨path.bytes.toArray⟩).map String.toList
  | .windowsUtf16Le => (utf16LeUnits path.bytes).bind decodeUtf16

/-- A text as a path. -/
def nativeOfText (encoding : PathEncoding) (text : List Char) : NativePath :=
  match encoding with
  | .unixBytes => { encoding, bytes := (String.ofList text).toUTF8.toList }
  | .windowsUtf16Le =>
      { encoding, bytes := (text.flatMap encodeUtf16).flatMap utf16LeBytes }

/-- A path contains a NUL, or half a code unit. -/
def containsNul (path : NativePath) : Bool :=
  match path.encoding with
  | .unixBytes => decide (0 ∈ path.bytes)
  | .windowsUtf16Le => (utf16LeUnits path.bytes).all (decide <| 0 ∈ ·)

def storagePrefix : PathEncoding → UInt8
  | .unixBytes => 1
  | .windowsUtf16Le => 2

/-- `native_path_storage_blob`. -/
def nativePathStorageBlob (path : NativePath) : Except CatalogError (List UInt8) := do
  require (path.bytes ≠ [] ∧ path.bytes.length ≤ 16384) .invalidNativePath
  require (containsNul path = false) .invalidNativePath
  return storagePrefix path.encoding :: path.bytes

/-- What the catalog takes from its surroundings: the case mapping, `normalize_relative_native_path`
    of the platform, the registered roots and the scans that are reconciliations of a root. -/
structure CatalogContext where
  lower : String → String
  normalizeRelative : NativePath → Except CatalogError NativePath
  roots : RootId → Option (Nat × Bool)
  isReconciliation : ScanId → RootId → Bool

/-- Separators are slashes, and none is at the front. -/
def slashed (text : List Char) : List Char :=
  (text.map fun c => if c = '\\' then '/' else c).dropWhile (· = '/')

/-- `normalized_native_path_storage_blob`: the key a path is known by. -/
def normalizedNativePathStorageBlob (context : CatalogContext) (path : NativePath)
    (caseSensitive : Bool) : Except CatalogError (List UInt8) :=
  let normalized := (nativeText path).map fun text =>
    nativeOfText path.encoding <|
      if caseSensitive then slashed text
      else (context.lower (String.ofList (slashed text))).toList
  nativePathStorageBlob (normalized.getD path)

/-- `CHECK (substr(relative_path, 1, 1) <> '/')`. -/
def isRooted (path : NativePath) : Bool :=
  match path.encoding with
  | .unixBytes => path.bytes.head? = some 0x2F
  | .windowsUtf16Le => path.bytes.take 2 = [0x2F, 0]

/-! ## Rows -/

inductive LifecycleState where
  | present
  | missing
  | offline
  | retired
deriving DecidableEq, Repr

structure FileRow where
  id : FileId
  lifecycleState : LifecycleState
deriving DecidableEq

/-- The kinds of identities a scan stores. -/
inductive IdentityKind where
  | windowsFileId
  | posixInode
deriving DecidableEq, Repr

structure IdentityRow where
  fileId : FileId
  volumeId : Nat
  kind : IdentityKind
  key : List UInt8
deriving DecidableEq

structure LocationRow where
  fileId : FileId
  rootId : RootId
  relativePathNative : List UInt8
  normalizedRelativePathNative : List UInt8
deriving DecidableEq

structure FileCatalog where
  files : List FileRow := []
  identities : List (Row ScanId IdentityRow) := []
  locations : List (Row ScanId LocationRow) := []
deriving DecidableEq

/-- `uq_native_identities_current_native` and `uq_native_identities_current_file`. -/
def IdentityRow.conflicts (a b : IdentityRow) : Bool :=
  decide (a.volumeId = b.volumeId ∧ a.kind = b.kind ∧ (a.key = b.key ∨ a.fileId = b.fileId))

/-- `uq_file_locations_current_native_path`. -/
def LocationRow.conflicts (a b : LocationRow) : Bool :=
  decide (a.rootId = b.rootId ∧ a.normalizedRelativePathNative = b.normalizedRelativePathNative)

/-- The file that holds an identity of a volume. -/
def FileCatalog.holder (catalog : FileCatalog) (volumeId : Nat) (key : List UInt8) : Option FileId :=
  ((current catalog.identities).find? fun row => row.volumeId = volumeId && row.key = key).map
    (·.fileId)

/-- A file is present; one that is not known is added. -/
def FileCatalog.withPresent (catalog : FileCatalog) (fileId : FileId) : FileCatalog :=
  let files := if fileId ∈ catalog.files.map (·.id) then catalog.files
    else catalog.files ++ [{ id := fileId, lifecycleState := .present }]
  { catalog with
    files := files.map fun file =>
      if file.id = fileId then { file with lifecycleState := .present } else file }

/-! ## Scans -/

/-- What the catalog reads of a `FileObservation`. -/
structure FileObservation where
  fileId : FileId
  rootId : RootId
  scanId : ScanId
  relativePath : NativePath
  volume : VolumeIdentity
  objectKey : List UInt8
deriving DecidableEq

def FileObservation.identityKind (observation : FileObservation) : IdentityKind :=
  match observation.volume.platform with
  | .windows => .windowsFileId
  | _ => .posixInode

/-- The file of an observation: the one that holds its identity, or a new one. -/
def FileCatalog.fileOf (catalog : FileCatalog) (volumeId : Nat) (observation : FileObservation) : FileId :=
  (catalog.holder volumeId observation.objectKey).getD observation.fileId

/-- `persist_observation`. -/
def persistObservation (context : CatalogContext) (observation : FileObservation)
    (catalog : FileCatalog) : Except CatalogError FileCatalog := do
  let (volumeId, caseSensitive) ← orError (context.roots observation.rootId) .sqlite
  let fileId := catalog.fileOf volumeId observation
  let catalog := catalog.withPresent fileId
  let identity : IdentityRow :=
    { fileId, volumeId, kind := observation.identityKind, key := observation.objectKey }
  let identities := if observation.objectKey = [] then catalog.identities
    else insertOrIgnore IdentityRow.conflicts identity catalog.identities
  let relativePathNative ← nativePathStorageBlob observation.relativePath
  let normalized ← normalizedNativePathStorageBlob context observation.relativePath caseSensitive
  -- whatever was known at the path is there no more, and the file is nowhere else
  let locations := close (fun row => row.rootId = observation.rootId
    && row.normalizedRelativePathNative = normalized && row.fileId ≠ fileId) observation.scanId
    catalog.locations
  let locations := close (fun row => row.fileId = fileId && (row.rootId ≠ observation.rootId
    || row.normalizedRelativePathNative ≠ normalized)) observation.scanId locations
  let location : LocationRow :=
    { fileId
      rootId := observation.rootId
      relativePathNative
      normalizedRelativePathNative := normalized }
  let locations := if isRooted observation.relativePath then locations
    else insertOrIgnore LocationRow.conflicts location locations
  -- the version that is stored refers to both rows
  require ((current identities).any (fun row => row.fileId = fileId && row.volumeId = volumeId
    && row.kind = observation.identityKind) = true) .sqlite
  require ((current locations).any (fun row => row.fileId = fileId
    && row.rootId = observation.rootId && row.normalizedRelativePathNative = normalized) = true)
    .sqlite
  return { catalog with identities, locations }

/-- The files of a `ScanCompletionInput`. -/
structure ScanCompletionInput where
  rootId : RootId
  scanId : ScanId
  files : List FileObservation
deriving DecidableEq

/-- `complete_scan`: all its observations, or none. -/
def completeScan (context : CatalogContext) (input : ScanCompletionInput) (catalog : FileCatalog) :
    Except CatalogError FileCatalog :=
  input.files.foldlM (fun catalog observation => persistObservation context observation catalog)
    catalog

/-! ## Missing paths -/

/-- `mark_current_path_missing`. -/
def markCurrentPathMissing (context : CatalogContext) (rootId : RootId) (relativePath : NativePath)
    (reconciliationScanId : ScanId) (catalog : FileCatalog) : Except CatalogError (Bool × FileCatalog) := do
  let relativePath ← context.normalizeRelative relativePath
  let (_, caseSensitive) ← orError (context.roots rootId) .sqlite
  let normalized ← normalizedNativePathStorageBlob context relativePath caseSensitive
  require (context.isReconciliation reconciliationScanId rootId = true) .invalidMonitoringInput
  match (current catalog.locations).find? fun row =>
      row.rootId = rootId && row.normalizedRelativePathNative = normalized with
  | none => return (false, catalog)
  | some location =>
      let locations := close (decide <| · = location) reconciliationScanId catalog.locations
      if (current locations).any (·.fileId = location.fileId) then
        return (true, { catalog with locations })
      else
        return (true,
          { files := catalog.files.map fun file =>
              if file.id = location.fileId then { file with lifecycleState := .missing } else file
            identities := close (·.fileId = location.fileId) reconciliationScanId catalog.identities
            locations })

/-! ## Runs -/

inductive CatalogCall where
  | scan (input : ScanCompletionInput)
  | markMissing (rootId : RootId) (relativePath : NativePath) (scanId : ScanId)

/-- A call that fails leaves the catalog as it is. -/
def CatalogCall.step (context : CatalogContext) (catalog : FileCatalog) : CatalogCall → FileCatalog
  | .scan input =>
      match completeScan context input catalog with
      | .ok after => after
      | .error _ => catalog
  | .markMissing rootId relativePath scanId =>
      match markCurrentPathMissing context rootId relativePath scanId catalog with
      | .ok (_, after) => after
      | .error _ => catalog

end Zemo.Catalog
