import Zemo.Domain.Execution
import Zemo.Lib.Checked
import Zemo.Lib.PathTree

set_option autoImplicit false

/-! # The files below a root

The files the application reads and moves: a directory tree whose names are compared without regard
to letter case. The lowercasing of names is a parameter; a path is found in the tree under its key,
the list of its lowercased components. -/

namespace Zemo

abbrev PathKey := List String

/-- What the file system finds beyond a link, where it finds something or fails. -/
inductive LinkedEntry where
  | directory
  | file (fingerprint : FileFingerprint)
  | link
  | failure
deriving DecidableEq

/-- What is at a path that is not a directory. A link comes with what is found beyond it, by the
    paths below it. -/
inductive FileEntry where
  | file (fingerprint : FileFingerprint)
  | link (beyond : List (PathKey × LinkedEntry))
deriving DecidableEq

/-- The tree below the root of an execution, by keys. -/
abbrev Tree := PathTree String FileEntry

/-- `path_key`. -/
def pathKey (lower : String → String) (path : RelPath) : PathKey := path.map lower

/-- A component a relative path may have. -/
def validComponent (component : String) : Bool :=
  component ≠ "" && component ≠ "." && component ≠ ".."
    && component.toList.all fun c => c ≠ '/' && c ≠ '\\'

/-- The second character of the path is a colon. -/
def hasDrive : RelPath → Bool
  | [] => false
  | component :: _ => component.toList[1]? = some ':'

/-- `relative_path` accepts the path. -/
def validRelative (path : RelPath) : Bool :=
  !path.isEmpty && path.all validComponent && !hasDrive path

/-! ## Reading -/

inductive IoError where
  | notFound
  | notADirectory
  | other
deriving DecidableEq, Repr

/-- What a look at an entry beyond a link answers. -/
def LinkedEntry.metadata : LinkedEntry → Except IoError (PathNode FileEntry)
  | .directory => .ok .dir
  | .file fingerprint => .ok (.leaf (.file fingerprint))
  | .link => .ok (.leaf (.link []))
  | .failure => .error .other

namespace Tree

/-- What stops the way down to an absent path: the leaf its longest existing prefix is, with the
    path from there. -/
def obstacle (t : Tree) (key : PathKey) : Option (FileEntry × PathKey) :=
  key.inits.findSome? fun p =>
    match t.node p with
    | some (.leaf e) => some (e, key.drop p.length)
    | _ => none

/-- `fs::symlink_metadata`, which follows every link but the last. Only absence is `NotFound`; a
    file in the place of a directory is another error. -/
def metadata (t : Tree) (key : PathKey) : Except IoError (PathNode FileEntry) :=
  match t.node key with
  | some n => .ok n
  | none =>
      match t.obstacle key with
      | none => .error .notFound
      | some (.file _, _) => .error .notADirectory
      | some (.link beyond, rest) =>
          match beyond.find? (·.1 = rest) with
          | none => .error .notFound
          | some entry => entry.2.metadata

/-- `fs::read_dir` lists an entry in the directory. -/
def HasEntry (t : Tree) (key : PathKey) : Prop :=
  match t.obstacle key with
  | some (.link beyond, rest) => ∃ entry ∈ beyond, entry.1 ≠ [] ∧ entry.1.dropLast = rest
  | _ => t.HasChild key

instance (t : Tree) (key : PathKey) : Decidable (t.HasEntry key) := by
  unfold HasEntry
  split <;> exact inferInstance

/-- Nothing but directories is on the way to the path. -/
def Clear (t : Tree) (key : PathKey) : Prop := t.obstacle key.dropLast = none

instance (t : Tree) (key : PathKey) : Decidable (t.Clear key) := by
  unfold Clear; exact inferInstance

end Tree

end Zemo

/-! ## The file checks of the safety policy

How the application finds a source, makes sure that a destination is absent, and takes the
fingerprint of a file. All of them look at the tree once. The paths the policy protects lie outside
the root and are part of the validity of the root. -/

namespace Zemo

def stagingDirectoryName : String := ".supremacy-staging"

/-- The text of the path starts with the name of the staging directory. -/
def startsWithStaging : RelPath → Bool
  | [] => false
  | component :: _ => stagingDirectoryName.toList.isPrefixOf component.toList

inductive SafetyPolicyError where
  | invalidRelativePath
  | protectedPath
  | sourceMissing
  | linkedOrSpecialEntry
  | destinationExists
  | confirmationPhraseRequired
  | invalidRoot
  | io (e : IoError)
deriving DecidableEq, Repr

/-- Why reading the file at a path failed. -/
inductive PlatformError where
  | precondition (message : String)
  | verificationLimitExceeded
deriving DecidableEq, Repr

/-- What of the policy the file checks use. -/
structure FilePolicy where
  lower : String → String
  maximumRehashBytes : Nat

namespace FilePolicy

variable (policy : FilePolicy)

/-- The key of a path in the tree. -/
def key (path : RelPath) : PathKey := pathKey policy.lower path

/-- `resolve_existing_source`, with the fingerprint of the file it found. -/
def resolveExistingSource (tree : Tree) (path : RelPath) :
    Except SafetyPolicyError FileFingerprint := do
  Checked.require (validRelative path = true) .invalidRelativePath
  match tree.metadata (policy.key path) with
  | .error .notFound => .error .sourceMissing
  | .error e => .error (.io e)
  | .ok (.leaf (.file fingerprint)) => do
      Checked.require (tree.Clear (policy.key path)) .linkedOrSpecialEntry
      return fingerprint
  | .ok _ => .error .linkedOrSpecialEntry

/-- Nothing is at the path. -/
def requireAbsent (tree : Tree) (path : RelPath) : Except SafetyPolicyError Unit :=
  match tree.metadata (policy.key path) with
  | .ok _ => .error .destinationExists
  | .error .notFound => .ok ()
  | .error e => .error (.io e)

/-- `resolve_absent_destination`. -/
def resolveAbsentDestination (tree : Tree) (path : RelPath) (internalStaging : Bool) :
    Except SafetyPolicyError Unit := do
  Checked.require (validRelative path = true) .invalidRelativePath
  Checked.require (tree.Clear (policy.key path)) .linkedOrSpecialEntry
  policy.requireAbsent tree path
  Checked.require (internalStaging = true ∨ path.head? ≠ some stagingDirectoryName) .protectedPath

/-- `fingerprint_streaming` of a regular file. -/
def fingerprintStreaming (fingerprint : FileFingerprint) : Except PlatformError FileFingerprint :=
  if policy.maximumRehashBytes > maxExecutionVerificationBytes
      ∨ fingerprint.byteSize > policy.maximumRehashBytes then
    .error .verificationLimitExceeded
  else .ok fingerprint

/-- The file is small enough to be read. -/
def Readable (fingerprint : FileFingerprint) : Prop :=
  policy.maximumRehashBytes ≤ maxExecutionVerificationBytes
    ∧ fingerprint.byteSize ≤ policy.maximumRehashBytes

variable {policy} {tree : Tree} {path : RelPath} {fingerprint : FileFingerprint}

@[simp] theorem fingerprintStreaming_eq_ok {observed : FileFingerprint} :
    policy.fingerprintStreaming fingerprint = .ok observed ↔
      policy.Readable fingerprint ∧ observed = fingerprint := by
  unfold fingerprintStreaming Readable
  split
  · rename_i h
    constructor
    · simp
    · rintro ⟨⟨h1, h2⟩, -⟩
      omega
  · rename_i h
    rw [not_or, not_lt, not_lt] at h
    exact ⟨fun heq => ⟨h, (Except.ok.inj heq).symm⟩, fun heq => by rw [heq.2]⟩

end FilePolicy

end Zemo

/-! ## The changes an operation asks for

An operation makes a directory, removes an empty one, or renames a file to a path where nothing is.
Its rollback asks for the inverse, and undoes it exactly. -/

namespace Zemo

/-- The tree after an operation or its rollback, when it can be performed. -/
def ExecutionOperation.mutate (op : ExecutionOperation) (policy : FilePolicy)
    (direction : ExecutorRequestDirection) (tree : Tree) : Option Tree :=
  let source := policy.key (op.sourceRelativePath.getD [])
  let destination := policy.key op.destinationRelativePath
  match op.kind, direction with
  | .createDirectory, .forward => tree.mkdir destination
  | .createDirectory, .rollback => tree.rmdir destination
  | .removeDirectoryIfEmpty, .forward => tree.rmdir source
  | .removeDirectoryIfEmpty, .rollback => tree.mkdir source
  | _, .forward => tree.move source destination
  | _, .rollback => tree.move destination source

end Zemo
