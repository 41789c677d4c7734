import Zemo.Files.Tree
import Zemo.Persistence.Database

set_option autoImplicit false

/-! # What the coordinator looks at

The observations the coordinator makes of the file tree around a mutation: the preconditions of an
operation and of its rollback, their postconditions, and what recovery sees of an operation whose
outcome is unknown. Each looks at the tree once and reads nothing else. -/

namespace Zemo

inductive ApprovedExecutorError where
  | unavailable (message : String)
  | ambiguous (message : String)
deriving DecidableEq, Repr

inductive ApplicationError where
  | invalidExecution
  | executionRecoveryRequired
  | executionApprovalRequired
  | executionConsentExpired
  | executionAlreadyActive
  | executionPreflightBlocked
  | unsupported (message : String)
  | journalLocked
  | gateDisabled
  | notFound
  | safety (e : SafetyPolicyError)
  | platform (e : PlatformError)
  | io (e : IoError)
  | persistence (e : PersistenceError)
  | executor (e : ApprovedExecutorError)
deriving DecidableEq, Repr

variable (policy : FilePolicy) (tree : Tree)

/-- Hand the error of a check on under its name in the application. -/
def raise {ε α : Type} (f : ε → ApplicationError) (x : Except ε α) : Except ApplicationError α :=
  x.mapError f

@[simp] theorem raise_eq_ok {ε α : Type} {f : ε → ApplicationError} {x : Except ε α} {a : α} :
    raise f x = .ok a ↔ x = .ok a := by
  cases x <;> simp [raise, Except.mapError]

/-- `relative_path`. -/
def relativePath (path : RelPath) : Except ApplicationError PathKey := do
  Checked.require (validRelative path = true) .invalidExecution
  return policy.key path

/-- The source of an operation that must have one. -/
def sourceKey (op : ExecutionOperation) : Except ApplicationError PathKey := do
  let source ← Checked.orError op.sourceRelativePath .invalidExecution
  relativePath policy source

/-! ## Before and after an operation -/

def revalidateRemoval (op : ExecutionOperation) : Except ApplicationError Unit := do
  let source ← sourceKey policy op
  let found ← raise .io (tree.metadata source)
  Checked.require (found = .dir) .invalidExecution
  Checked.require (¬tree.HasEntry source)
    (.platform (.precondition "source directory is not empty after its planned moves"))

/-- The file at a path of the operation, when it is the expected one. -/
def expectFile (path : RelPath) (expected : Option FileFingerprint) (message : String) :
    Except ApplicationError FileFingerprint := do
  let found ← raise .safety (policy.resolveExistingSource tree path)
  let current ← raise .platform (policy.fingerprintStreaming found)
  let expected ← Checked.orError expected .invalidExecution
  Checked.require (sameFileState expected current = true) (.platform (.precondition message))
  return current

/-- `revalidate_operation`. -/
def revalidateOperation (op : ExecutionOperation) :
    Except ApplicationError (Option FileFingerprint) :=
  if op.kind = .removeDirectoryIfEmpty then do
    revalidateRemoval policy tree op
    return none
  else do
    let _ ← relativePath policy op.destinationRelativePath
    raise .safety (policy.resolveAbsentDestination tree op.destinationRelativePath
      (startsWithStaging op.destinationRelativePath))
    if op.kind = .createDirectory then return none
    else do
      let source ← Checked.orError op.sourceRelativePath .invalidExecution
      let _ ← relativePath policy source
      let current ← expectFile policy tree source op.liveFingerprint
        "source changed between preflight and mutation"
      return some current

/-- A directory is at the path. -/
def expectDirectory (key : PathKey) : Except ApplicationError Unit := do
  let found ← raise .io (tree.metadata key)
  Checked.require (found = .dir) .invalidExecution

/-- `fs::symlink_metadata` does not find anything at the path. -/
def unreadable (key : PathKey) : Prop := ∀ n, tree.metadata key ≠ .ok n

instance (key : PathKey) : Decidable (unreadable tree key) :=
  decidable_of_iff (tree.metadata key).isOk.not (by
    cases h : tree.metadata key <;> simp [unreadable, Except.isOk, Except.toBool, h])

/-- `execution_fingerprint` of whatever is at a path. -/
def executionFingerprint (key : PathKey) : Except ApplicationError FileFingerprint :=
  match tree.metadata key with
  | .ok (.leaf (.file found)) => raise .platform (policy.fingerprintStreaming found)
  | .ok _ => .error (.platform (.precondition "not a regular file"))
  | .error e => .error (.io e)

/-- The file at a path after a move is the expected one, and nothing is left where it was. -/
def verifyMoved (before after : PathKey) (expected : Option FileFingerprint) :
    Except ApplicationError FileFingerprint := do
  Checked.require (unreadable tree before) .invalidExecution
  let observed ← executionFingerprint policy tree after
  let expected ← Checked.orError expected .invalidExecution
  Checked.require (sameFileState expected observed = true) .invalidExecution
  return observed

/-- `verify_postcondition`. -/
def verifyPostcondition (op : ExecutionOperation) :
    Except ApplicationError (Option FileFingerprint) :=
  if op.kind = .removeDirectoryIfEmpty then do
    let source ← sourceKey policy op
    Checked.require (tree.metadata source = .error .notFound) .invalidExecution
    return none
  else do
    let destination ← relativePath policy op.destinationRelativePath
    if op.kind = .createDirectory then do
      expectDirectory tree destination
      return none
    else do
      let source ← sourceKey policy op
      let observed ← verifyMoved policy tree source destination op.liveFingerprint
      return some observed

/-! ## Before and after a rollback -/

/-- A directory the execution created is empty or gone. -/
def revalidateCreated (key : PathKey) : Except ApplicationError Unit :=
  match tree.metadata key with
  | .ok .dir =>
      Checked.require (¬tree.HasEntry key)
        (.platform (.precondition "directory created by this execution is no longer empty"))
  | .error .notFound => .ok ()
  | .ok _ => .error .invalidExecution
  | .error e => .error (.io e)

/-- `revalidate_rollback`. -/
def revalidateRollback (op : ExecutionOperation) :
    Except ApplicationError (Option FileFingerprint) :=
  if op.kind = .removeDirectoryIfEmpty then do
    let restore ← Checked.orError op.sourceRelativePath .invalidExecution
    let _ ← relativePath policy restore
    raise .safety (policy.resolveAbsentDestination tree restore false)
    return none
  else do
    let current ← relativePath policy op.destinationRelativePath
    if op.kind = .createDirectory then do
      revalidateCreated tree current
      return none
    else do
      let fingerprint ← expectFile policy tree op.destinationRelativePath op.postFingerprint
        "the applied file changed after execution; rollback is blocked"
      let source ← Checked.orError op.sourceRelativePath .invalidExecution
      let _ ← relativePath policy source
      raise .safety (policy.resolveAbsentDestination tree source (startsWithStaging source))
      return some fingerprint

/-- `verify_rollback_postcondition`. -/
def verifyRollbackPostcondition (op : ExecutionOperation) : Except ApplicationError Unit :=
  if op.kind = .removeDirectoryIfEmpty then do
    let restored ← sourceKey policy op
    expectDirectory tree restored
  else do
    let prior ← relativePath policy op.destinationRelativePath
    if op.kind = .createDirectory then
      Checked.require (unreadable tree prior) .invalidExecution
    else do
      let restored ← sourceKey policy op
      let _ ← verifyMoved policy tree prior restored op.postFingerprint
      return ()

/-! ## Recovery -/

inductive RecoveryObservation where
  | notStarted
  | applied (fingerprint : Option FileFingerprint)
  | ambiguous (reason : String)
deriving DecidableEq

/-- `fingerprint_if_present`: anything at the path but a regular file is an error. -/
def fingerprintIfPresent (key : PathKey) : Except ApplicationError (Option FileFingerprint) :=
  match tree.metadata key with
  | .ok (.leaf (.file found)) => (raise .platform (policy.fingerprintStreaming found)).map some
  | .ok _ => .error .invalidExecution
  | .error .notFound => .ok none
  | .error e => .error (.io e)

/-- What the entry at the path of a directory operation means: `present` when a directory is there,
    `absent` when nothing is. -/
def observeDirectory (key : PathKey) (present absent : RecoveryObservation) (unexpected : String) :
    Except ApplicationError RecoveryObservation :=
  match tree.metadata key with
  | .ok .dir => .ok present
  | .error .notFound => .ok absent
  | .ok _ => .ok (.ambiguous unexpected)
  | .error e => .error (.io e)

/-- What the two ends of a move mean. -/
def observeMove (start stop : PathKey) (expected : Option FileFingerprint)
    (both neither other : String) : Except ApplicationError RecoveryObservation := do
  let expected ← Checked.orError expected .invalidExecution
  let startObserved ← fingerprintIfPresent policy tree start
  let stopObserved ← fingerprintIfPresent policy tree stop
  return match startObserved, stopObserved with
    | some file, none => if sameFileState expected file then .notStarted else .ambiguous other
    | none, some file => if sameFileState expected file then .applied file else .ambiguous other
    | some _, some _ => .ambiguous both
    | none, none => .ambiguous neither

/-- `observe_recovery`. -/
def observeRecovery (op : ExecutionOperation) : Except ApplicationError RecoveryObservation :=
  if op.kind = .removeDirectoryIfEmpty then do
    let source ← sourceKey policy op
    observeDirectory tree source .notStarted (.applied none)
      "Cleanup source path contains an unexpected entry."
  else do
    let destination ← relativePath policy op.destinationRelativePath
    if op.kind = .createDirectory then
      observeDirectory tree destination (.applied none) .notStarted
        "Directory path contains an unexpected entry."
    else do
      let source ← sourceKey policy op
      observeMove policy tree source destination op.liveFingerprint
        "Both source and destination exist."
        "Neither source nor destination exists."
        "Observed file identity or content does not match the journal."

/-- `observe_rollback_recovery`. -/
def observeRollbackRecovery (op : ExecutionOperation) :
    Except ApplicationError RecoveryObservation :=
  if op.kind = .removeDirectoryIfEmpty then do
    let restored ← sourceKey policy op
    observeDirectory tree restored (.applied none) .notStarted
      "Rollback cleanup path contains an unexpected entry."
  else do
    let current ← relativePath policy op.destinationRelativePath
    if op.kind = .createDirectory then
      observeDirectory tree current .notStarted (.applied none)
        "Rollback directory path contains an unexpected entry."
    else do
      let restored ← sourceKey policy op
      observeMove policy tree current restored op.postFingerprint
        "Both applied and restored paths exist during rollback recovery."
        "Neither applied nor restored path exists during rollback recovery."
        "Rollback file identity or content does not match the journal."

end Zemo
