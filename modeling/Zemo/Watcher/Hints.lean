import Mathlib.Algebra.Group.Nat.Defs
import Zemo.Domain.Execution
import Zemo.Lib.KeyedList

set_option autoImplicit false

/-! # Change hints

The watcher of a root turns what the platform reports into hints. A rename may be reported as two
sides that carry one native key; a side waits for the other one across drains. The hints of a drain
are coalesced before they are handed out.

The maps of the source are lists of entries with different keys here, in the order of insertion, so
that the order in which hints are handed out is not that of the source. -/

namespace Zemo.Watcher

inductive LocalEventKind where
  | created
  | modified
  | moved
  | removed
  | metadata
  | overflow
  | rescanRequired
deriving DecidableEq, Repr

inductive ChangeScope where
  | file
  | directory
  | unknown
deriving DecidableEq, Repr

abbrev NativeKey := List UInt8

structure ChangeHint where
  rootToken : String
  nativeKey : Option NativeKey
  pathAfter : Option RelPath
  pathBefore : Option RelPath
  kind : LocalEventKind
  scope : ChangeScope
deriving DecidableEq, Repr

/-- `rescan_hint`. -/
def rescanHint (rootToken : String) : ChangeHint where
  rootToken
  nativeKey := none
  pathAfter := none
  pathBefore := none
  kind := .rescanRequired
  scope := .unknown

/-- `overflow_hint`. -/
def overflowHint (rootToken : String) : ChangeHint :=
  { rescanHint rootToken with kind := .overflow }

/-- The hint is one side of a rename. -/
def ChangeHint.isPartialMove (hint : ChangeHint) : Bool :=
  hint.kind = .moved && hint.pathAfter.isSome != hint.pathBefore.isSome

/-- `conservative_one_sided_move`. -/
def conservativeOneSidedMove (hint : ChangeHint) : ChangeHint :=
  if hint.isPartialMove then { hint with kind := .rescanRequired, scope := .unknown } else hint

/-- `merge_change_scopes`. -/
def mergeChangeScopes (previous next : ChangeScope) : ChangeScope :=
  if previous = next then previous
  else
    match previous, next with
    | .unknown, incoming => incoming
    | scope, .unknown => scope
    | _, _ => .unknown

/-- `merge_event_kinds`. -/
def mergeEventKinds (previous next : LocalEventKind) : LocalEventKind :=
  if previous = .rescanRequired ∨ next = .rescanRequired then .rescanRequired
  else if previous = .overflow ∨ next = .overflow then .overflow
  else if previous = next then previous
  else
    match previous, next with
    | .metadata, incoming => incoming
    | kind, .metadata => kind
    | .created, .modified | .modified, .created => .created
    | .created, .removed | .modified, .removed | .moved, .removed => .removed
    | .removed, .created => .modified
    | _, incoming => incoming

/-- Two sides of one rename. -/
def pairedHint (previous hint : ChangeHint) : ChangeHint where
  rootToken := hint.rootToken
  nativeKey := hint.nativeKey
  pathAfter := hint.pathAfter.or previous.pathAfter
  pathBefore := hint.pathBefore.or previous.pathBefore
  kind := .moved
  scope := mergeChangeScopes previous.scope hint.scope

/-! ## Coalescing -/

abbrev RenameKey := String × NativeKey

/-- One turn of the loop of `coalesce_tracked_renames`: what was output, and the pending sides. -/
def trackRename (state : List ChangeHint × List (RenameKey × ChangeHint)) (hint : ChangeHint) :
    List ChangeHint × List (RenameKey × ChangeHint) :=
  let (output, pending) := state
  match hint.nativeKey with
  | none => (output ++ [conservativeOneSidedMove hint], pending)
  | some nativeKey =>
      if ¬hint.isPartialMove then (output ++ [hint], pending)
      else
        let key := (hint.rootToken, nativeKey)
        match KeyedList.lookup key pending with
        | some previous =>
            if previous.pathAfter.isSome ≠ hint.pathAfter.isSome then
              (output ++ [pairedHint previous hint], KeyedList.remove key pending)
            else
              (output ++ [conservativeOneSidedMove previous],
                KeyedList.remove key pending ++ [(key, hint)])
        | none => (output, pending ++ [(key, hint)])

/-- `coalesce_tracked_renames`. -/
def coalesceTrackedRenames (hints : List ChangeHint) : List ChangeHint :=
  let (output, pending) := hints.foldl trackRename ([], [])
  output ++ pending.map fun entry => conservativeOneSidedMove entry.2

structure CoalesceKey where
  rootToken : String
  nativeKey : Option NativeKey
  pathAfter : Option RelPath
  pathBefore : Option RelPath
deriving DecidableEq, Repr

def ChangeHint.coalesceKey (hint : ChangeHint) : CoalesceKey where
  rootToken := hint.rootToken
  nativeKey := hint.nativeKey
  pathAfter := hint.pathAfter
  pathBefore := hint.pathBefore

/-- The hint names no path. -/
def ChangeHint.isPathless (hint : ChangeHint) : Bool :=
  hint.pathAfter.isNone && hint.pathBefore.isNone

/-- The hint asks to look at the whole root again. -/
def ChangeHint.isRootRescan (hint : ChangeHint) : Bool :=
  hint.kind = .rescanRequired && hint.isPathless

/-- A hint joins the one with its key, or becomes one of its own. -/
def mergeHint (output : List (CoalesceKey × ChangeHint)) (hint : ChangeHint) :
    List (CoalesceKey × ChangeHint) :=
  match KeyedList.lookup hint.coalesceKey output with
  | none => output ++ [(hint.coalesceKey, hint)]
  | some _ => output.map fun entry =>
      if entry.1 = hint.coalesceKey then
        (entry.1, { entry.2 with
          kind := mergeEventKinds entry.2.kind hint.kind
          scope := mergeChangeScopes entry.2.scope hint.scope })
      else entry

/-- One turn of the loop of `coalesce_change_hints`: the hints by key, and the roots to look at
    again. -/
def coalesceHint (state : List (CoalesceKey × ChangeHint) × List String) (hint : ChangeHint) :
    List (CoalesceKey × ChangeHint) × List String :=
  let (output, rescans) := state
  if hint.isRootRescan then
    (mergeHint (output.filter fun entry => entry.1.rootToken ≠ hint.rootToken) hint,
      hint.rootToken :: rescans)
  else if hint.rootToken ∈ rescans then (output, rescans)
  else (mergeHint output hint, rescans)

/-- `coalesce_change_hints`. -/
def coalesceChangeHints (hints : List ChangeHint) : List ChangeHint :=
  ((coalesceTrackedRenames hints).foldl coalesceHint ([], [])).1.map Prod.snd

/-! ## Renames across drains -/

/-- A side of a rename that waits for the other one. Times are in milliseconds. -/
structure PendingNativeRename where
  hint : ChangeHint
  expiresAt : Nat
deriving DecidableEq, Repr

/-- `NATIVE_RENAME_EXPIRATION`. -/
def nativeRenameExpiration : Nat := 250

/-- `MAX_PENDING_NATIVE_RENAMES`. -/
def maxPendingNativeRenames : Nat := 4096

abbrev PendingRenames := List (RenameKey × PendingNativeRename)

/-- The hint asks to look again, at a path or at the whole root. -/
def ChangeHint.asksRescan (hint : ChangeHint) : Bool :=
  hint.kind = .overflow || hint.kind = .rescanRequired

/-- One turn of the loop of `resolve_native_rename_hints`: the pending sides, and what was
    output. -/
def resolveHint (now : Nat) (state : PendingRenames × List ChangeHint) (hint : ChangeHint) :
    PendingRenames × List ChangeHint :=
  let (pending, output) := state
  match hint.nativeKey with
  | none => (pending, output ++ [conservativeOneSidedMove hint])
  | some nativeKey =>
      if ¬hint.isPartialMove then (pending, output ++ [hint])
      else
        let key := (hint.rootToken, nativeKey)
        let waiting := (key, { hint, expiresAt := now + nativeRenameExpiration })
        match KeyedList.lookup key pending with
        | some previous =>
            if previous.hint.pathAfter.isSome ≠ hint.pathAfter.isSome then
              (KeyedList.remove key pending, output ++ [pairedHint previous.hint hint])
            else
              (KeyedList.remove key pending ++ [waiting],
                output ++ [rescanHint previous.hint.rootToken])
        | none =>
            if maxPendingNativeRenames ≤ pending.length then
              ([], output ++ [rescanHint hint.rootToken])
            else (pending ++ [waiting], output)

/-- `resolve_native_rename_hints`. -/
def resolveNativeRenameHints (pending : PendingRenames) (hints : List ChangeHint) (now : Nat) :
    PendingRenames × List ChangeHint :=
  if hints.any ChangeHint.asksRescan then ([], hints)
  else
    let expired := pending.filter fun entry => entry.2.expiresAt ≤ now
    let waiting := pending.filter fun entry => ¬entry.2.expiresAt ≤ now
    hints.foldl (resolveHint now)
      (waiting, expired.map fun entry => rescanHint entry.2.hint.rootToken)

/-! ## Drains -/

/-- What a drain finds: the hints of the events that came, and the time. -/
structure Drain where
  hints : List ChangeHint
  now : Nat
deriving DecidableEq, Repr

/-- The hints a drain hands out. -/
def Drain.emitted (drain : Drain) (pending : PendingRenames) : List ChangeHint :=
  coalesceChangeHints (resolveNativeRenameHints pending drain.hints drain.now).2

/-- The sides that wait after a drain. -/
def Drain.pendingAfter (drain : Drain) (pending : PendingRenames) : PendingRenames :=
  (resolveNativeRenameHints pending drain.hints drain.now).1

/-- The sides that wait after some drains. -/
def pendingAfter (pending : PendingRenames) (drains : List Drain) : PendingRenames :=
  drains.foldl (fun pending drain => drain.pendingAfter pending) pending

/-- What each of some drains hands out. -/
def emissions (pending : PendingRenames) : List Drain → List (List ChangeHint)
  | [] => []
  | drain :: drains => drain.emitted pending :: emissions (drain.pendingAfter pending) drains

end Zemo.Watcher

/-! ## Events of the platform

What the watcher library reports, and the hints it becomes. How a path of an event lies to the root,
and what is there, is asked of the surroundings. -/

namespace Zemo.Watcher

inductive CreateKind where
  | any
  | file
  | folder
  | other
deriving DecidableEq, Repr

inductive RemoveKind where
  | any
  | file
  | folder
  | other
deriving DecidableEq, Repr

inductive RenameMode where
  | any
  | to
  | from_
  | both
  | other
deriving DecidableEq, Repr

inductive ModifyKind where
  | any
  | data
  | metadata
  | name (mode : RenameMode)
  | other
deriving DecidableEq, Repr

inductive EventKind where
  | any
  | access
  | create (kind : CreateKind)
  | modify (kind : ModifyKind)
  | remove (kind : RemoveKind)
  | other
deriving DecidableEq, Repr

abbrev EventPath := List String

structure Event where
  kind : EventKind
  paths : List EventPath
  tracker : Option Nat
  needRescan : Bool
deriving DecidableEq, Repr

/-- What is known of the root and of the paths of events. -/
structure WatchContext where
  rootToken : String
  /-- The absolute path is that of the root. -/
  isRoot : EventPath → Bool
  /-- The absolute path is the root or below it. -/
  underRoot : EventPath → Bool
  /-- `root_relative_event_path`. -/
  relative : EventPath → Option RelPath
  /-- What is at the path, if anything. -/
  scope : EventPath → Option ChangeScope

namespace WatchContext

variable (context : WatchContext)

/-- `observed_event_scope`. -/
def observedEventScope (path : EventPath) : Option ChangeScope :=
  (context.relative path).bind fun _ => context.scope path

/-- `unresolved_event_hints`. -/
def unresolvedEventHints (paths : List EventPath) : List ChangeHint :=
  if paths = [] ∨ paths.any context.underRoot then [rescanHint context.rootToken] else []

/-- `path_hints`. -/
def pathHints (paths : List EventPath) (kind : LocalEventKind) (before : Bool)
    (nativeKey : Option NativeKey) (fallbackScope : ChangeScope) : List ChangeHint :=
  let hints := paths.filterMap fun path =>
    (context.relative path).map fun relative =>
      { rootToken := context.rootToken
        nativeKey
        pathAfter := if before then none else some relative
        pathBefore := if before then some relative else none
        kind
        scope := (context.observedEventScope path).getD fallbackScope }
  if hints = [] then context.unresolvedEventHints paths else hints

end WatchContext

/-- `create_scope`. -/
def createScope : CreateKind → ChangeScope
  | .file => .file
  | .folder => .directory
  | .any | .other => .unknown

/-- `remove_scope`. -/
def removeScope : RemoveKind → ChangeScope
  | .file => .file
  | .folder => .directory
  | .any | .other => .unknown

/-- `boundary_aware_move_hint`. -/
def boundaryAwareMoveHint (rootToken : String) (nativeKey : Option NativeKey)
    (pathBefore pathAfter : Option RelPath) (scope : ChangeScope) : ChangeHint where
  rootToken
  nativeKey
  pathAfter
  pathBefore
  kind :=
    match pathBefore.isSome, pathAfter.isSome with
    | false, true => .created
    | true, false => .removed
    | _, _ => .moved
  scope

/-- `to_le_bytes` on a number of 64 bits. -/
def leBytes (tracker : Nat) : NativeKey :=
  (List.range 8).map fun index => UInt8.ofNat (tracker / 256 ^ index % 256)

/-- The hint of a rename both sides of which are reported. -/
def WatchContext.bothSides (context : WatchContext) (paths : List EventPath)
    (nativeKey : Option NativeKey) : List ChangeHint :=
  let pathBefore := paths.head?.bind context.relative
  let pathAfter := paths.getLast?.bind context.relative
  if pathBefore.isNone ∧ pathAfter.isNone then context.unresolvedEventHints paths
  else
    let scope := (paths.reverse.findSome? context.observedEventScope).getD .unknown
    [boundaryAwareMoveHint context.rootToken nativeKey pathBefore pathAfter scope]

/-- `hints_from_notify_event`. -/
def WatchContext.hintsFromNotifyEvent (context : WatchContext) (event : Event) : List ChangeHint :=
  if event.needRescan then [overflowHint context.rootToken]
  else if event.kind ≠ .access ∧ event.paths.any context.isRoot then [rescanHint context.rootToken]
  else
    let nativeKey := event.tracker.map leBytes
    match event.kind with
    | .access => []
    | .create kind =>
        context.pathHints event.paths .created false nativeKey (createScope kind)
    | .remove kind =>
        context.pathHints event.paths .removed true nativeKey (removeScope kind)
    | .modify .metadata => context.pathHints event.paths .metadata false nativeKey .unknown
    | .modify (.name .from_) => context.pathHints event.paths .moved true nativeKey .unknown
    | .modify (.name .to) => context.pathHints event.paths .moved false nativeKey .unknown
    | .modify (.name _) =>
        if event.paths.length < 2 then
          context.pathHints event.paths .rescanRequired false nativeKey .unknown
        else context.bothSides event.paths nativeKey
    | .modify _ => context.pathHints event.paths .modified false nativeKey .unknown
    | .any | .other => [rescanHint context.rootToken]

/-- What `drain_hints` finds in its channel: whether events were dropped, the events and errors that
    came, and whether the channel is closed. -/
structure Received where
  overflowed : Bool
  events : List (Option Event)
  disconnected : Bool
  now : Nat
deriving DecidableEq, Repr

/-- The drain of what was received. -/
def WatchContext.drain (context : WatchContext) (received : Received) : Drain where
  hints :=
    (if received.overflowed then [overflowHint context.rootToken] else [])
      ++ (received.events.flatMap fun
        | some event => context.hintsFromNotifyEvent event
        | none => [rescanHint context.rootToken])
      ++ if received.disconnected then [rescanHint context.rootToken] else []
  now := received.now

/-! ## One root -/

variable {context : WatchContext}

private theorem mem_of_ite {α : Type} {c : Prop} [Decidable c] {a : α} {s t : List α}
    (h : a ∈ if c then s else t) : a ∈ s ∨ a ∈ t := by
  split at h
  · exact .inl h
  · exact .inr h

private theorem unresolvedEventHints_rootToken (paths : List EventPath) :
    ∀ hint ∈ context.unresolvedEventHints paths, hint.rootToken = context.rootToken := by
  intro hint hhint
  unfold WatchContext.unresolvedEventHints at hhint
  split at hhint
  · exact List.mem_singleton.1 hhint ▸ rfl
  · exact absurd hhint List.not_mem_nil

private theorem pathHints_rootToken (paths : List EventPath) (kind : LocalEventKind)
    (before : Bool) (nativeKey : Option NativeKey) (fallback : ChangeScope) :
    ∀ hint ∈ context.pathHints paths kind before nativeKey fallback,
      hint.rootToken = context.rootToken := by
  intro hint hhint
  rcases mem_of_ite hhint with hhint | hhint
  · exact unresolvedEventHints_rootToken paths hint hhint
  · obtain ⟨path, -, hpath⟩ := List.mem_filterMap.1 hhint
    obtain ⟨relative, -, rfl⟩ := Option.map_eq_some_iff.1 hpath
    rfl

private theorem bothSides_rootToken (paths : List EventPath) (nativeKey : Option NativeKey) :
    ∀ hint ∈ context.bothSides paths nativeKey, hint.rootToken = context.rootToken := by
  intro hint hhint
  unfold WatchContext.bothSides at hhint
  dsimp only at hhint
  split at hhint
  · exact unresolvedEventHints_rootToken paths hint hhint
  · exact List.mem_singleton.1 hhint ▸ rfl

/-- The hints of an event are for the root of the watcher. -/
theorem hintsFromNotifyEvent_rootToken (event : Event) :
    ∀ hint ∈ context.hintsFromNotifyEvent event, hint.rootToken = context.rootToken := by
  intro hint hhint
  unfold WatchContext.hintsFromNotifyEvent at hhint
  split at hhint
  · exact List.mem_singleton.1 hhint ▸ rfl
  split at hhint
  · exact List.mem_singleton.1 hhint ▸ rfl
  dsimp only at hhint
  split at hhint
  case h_1 => exact absurd hhint List.not_mem_nil
  case h_7 =>
      split at hhint
      · exact pathHints_rootToken _ _ _ _ _ hint hhint
      · exact bothSides_rootToken _ _ hint hhint
  case h_9 => exact List.mem_singleton.1 hhint ▸ rfl
  case h_10 => exact List.mem_singleton.1 hhint ▸ rfl
  all_goals exact pathHints_rootToken _ _ _ _ _ hint hhint

/-- So are those of a drain. -/
theorem drain_rootToken (received : Received) :
    ∀ hint ∈ (context.drain received).hints, hint.rootToken = context.rootToken := by
  intro hint hhint
  simp only [WatchContext.drain, List.mem_append, List.mem_flatMap] at hhint
  rcases hhint with (hhint | ⟨event, -, hhint⟩) | hhint
  · split at hhint
    · exact List.mem_singleton.1 hhint ▸ rfl
    · exact absurd hhint List.not_mem_nil
  · cases event with
    | none => exact List.mem_singleton.1 hhint ▸ rfl
    | some event => exact hintsFromNotifyEvent_rootToken event hint hhint
  · split at hhint
    · exact List.mem_singleton.1 hhint ▸ rfl
    · exact absurd hhint List.not_mem_nil

end Zemo.Watcher
