import Zemo.Domain.Execution
import Zemo.Organizer.PathSafety

set_option autoImplicit false

/-! # What a look at the file system finds

The errors of the platform, what it knows of a regular file without opening it, and the label a file
is shown under. -/

namespace Zemo.Scan

open Checked

/-! ## Errors -/

inductive PlatformError where
  | outsideRoot
  | reparsePoint
  | cloudPlaceholder
  | pathPolicyRefusal
  | unsupported (message : String)
  | precondition (message : String)
  | sharingViolation
  | lockViolation
  | permissionDenied
  | diskFull
  | destinationExists
  | sourceMissing
  | ambiguousMutationOutcome
  | cancelled
  | verificationLimitExceeded (limitBytes : Nat)
  | io (message : String) (denied : Bool)
  | secretStore (message : String)
deriving DecidableEq, Repr

end Zemo.Scan
