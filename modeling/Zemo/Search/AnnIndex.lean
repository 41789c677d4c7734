import Mathlib.Data.List.Sort
import Zemo.Domain.Proposal
import Zemo.Lib.Prog
import Zemo.Lib.Run

set_option autoImplicit false

/-! # The vector index

The chunks of the indexed files are rows of the database, each with the key its vector has in the
index. The index itself lives in memory, with a snapshot and its metadata on disk: it is opened from
these when it is first needed, and written back after a file was indexed or everything rebuilt. What
is modelled is the index of one workspace and one embedding provider; the library behind it is a map
from keys to vectors. Every write may fail or be where the process dies. -/

namespace Zemo.Search

open Checked

/-! ## Data -/

inductive ChunkStatus where
  | active
  | tombstone
  | partial_
deriving DecidableEq, Repr

/-- The status is `active` or `partial`. -/
def ChunkStatus.isStored : ChunkStatus → Bool
  | .active | .partial_ => true
  | .tombstone => false

/-! ## The chunks of a file -/

structure AnnUpsertRecord where
  annKey : Nat
  vector : List UInt8
deriving DecidableEq

structure FileChunkReplaceResult where
  upserts : List AnnUpsertRecord
  removedKeys : List Nat
deriving DecidableEq

end Zemo.Search

/-! ## Runs of the vector index

What is promised of an index a search trusts, the calls a run is made of, and the condition on a
call: `Thorough` says what an indexing call and a clearing have to find, and which of their writes
must not fail, for the promise to last. -/
