import Zemo.Lib.Prog
import Zemo.Lib.Run
import Zemo.Monitoring.Queue
import Zemo.Scan.Entries

set_option autoImplicit false

/-! # The monitoring cycle

`process_due_monitoring_jobs`: the jobs that are due are claimed, each of them is looked at, and
those whose file has come to rest are reconciled with the catalog, all the prepared jobs of a root
as one batch. Each turn of the two loops is a step of its own, so that between any two of them a
watcher may append events. The events a reconciliation of a directory or of a root finds are
appended the same way.

What a step meets outside the queue (the files, the catalog, what the analyses after the scan say)
is given with it. Nobody cancels the cycle. -/

namespace Zemo.Monitoring

open Scan

/-! ## Errors -/

inductive CycleError where
  | queue (cause : QueueError)
  | invalidMonitoringRequest
  | catalog (cause : Scan.PlatformError)
  /-- An error of the scan's rows or of an analysis, by its text. -/
  | later (text : String)
deriving DecidableEq

/-! ## Reconciling a batch -/

/-- The characters of a path in lower case, with one separator. -/
def pathCharacters (lower : String → String) (path : RelPath) : List Char :=
  (lower (String.ofList (['/'].intercalate (path.map (·.toList.map fun c =>
    if c = '\\' then '/' else c))))).toList

/-- `trim_start_matches("./")`. -/
def trimCurrent : List Char → List Char
  | '.' :: '/' :: rest => trimCurrent rest
  | text => text

/-- `normalized_monitoring_path`: whether the path is absolute, and its components. -/
def normalizedMonitoringPath (lower : String → String) (path : RelPath) : Bool × List (List Char) :=
  let text := trimCurrent (pathCharacters lower path)
  (text.head? = some '/', (text.splitOn '/').filter fun part => part ≠ [] ∧ part ≠ ['.'])

/-! ## The steps of the cycle -/

def maximumJobBatch : Nat := 500
end Zemo.Monitoring
