import Mathlib.Data.String.Basic
import Mathlib.Data.List.Sort
import Zemo.Watcher.Covering

set_option autoImplicit false

/-! # The polling monitor

The fallback where a root cannot be watched: it looks at all of the root from time to time, compares
what it finds with what it found before and turns the differences into hints. A created and a removed
path with a stamp that no other created or removed path has are taken for a rename. -/

namespace Zemo.Watcher

open KeyedList

/-! ## Snapshots -/

structure PollingStamp where
  scope : ChangeScope
  byteSize : Nat
  modifiedNs : Nat
  readOnly : Bool
deriving DecidableEq, Repr

/-- The stamps by path, in the order the map is iterated in. -/
structure PollingEntries where
  entries : List (RelPath × PollingStamp)
  keyed : KeyedList.Keyed entries

def PollingEntries.stamp (map : PollingEntries) (path : RelPath) : Option PollingStamp :=
  lookup path map.entries

/-! ## Differences -/

/-- The entries of `map` whose path is not in `other`, by path. -/
def onlyIn (map other : PollingEntries) : List (RelPath × PollingStamp) :=
  (map.entries.filter fun entry => (other.stamp entry.1).isNone).insertionSort
    fun left right => left.1 ≤ right.1

/-- The created entry a removed one is paired with: no other entry of either kind has its stamp. -/
def partner (created removed : List (RelPath × PollingStamp)) (entry : RelPath × PollingStamp) :
    Option (RelPath × PollingStamp) :=
  match created.filter fun candidate => candidate.2 = entry.2 with
  | [candidate] =>
      if removed.countP (fun other => other.2 = entry.2) = 1 then some candidate else none
  | _ => none

section Hints

variable (rootToken : String)

def movedHint (before after : RelPath × PollingStamp) : ChangeHint where
  rootToken
  nativeKey := none
  pathAfter := some after.1
  pathBefore := some before.1
  kind := .moved
  scope := mergeChangeScopes before.2.scope after.2.scope

def createdHint (entry : RelPath × PollingStamp) : ChangeHint where
  rootToken
  nativeKey := none
  pathAfter := some entry.1
  pathBefore := none
  kind := .created
  scope := entry.2.scope

def removedHint (entry : RelPath × PollingStamp) : ChangeHint where
  rootToken
  nativeKey := none
  pathAfter := none
  pathBefore := some entry.1
  kind := .removed
  scope := entry.2.scope

def changedHint (path : RelPath) (oldStamp stamp : PollingStamp) : ChangeHint where
  rootToken
  nativeKey := none
  pathAfter := some path
  pathBefore := if oldStamp.scope ≠ stamp.scope then some path else none
  kind :=
    if oldStamp.scope ≠ stamp.scope then .rescanRequired
    else if oldStamp.byteSize ≠ stamp.byteSize ∨ oldStamp.modifiedNs ≠ stamp.modifiedNs then
      .modified
    else .metadata
  scope := mergeChangeScopes oldStamp.scope stamp.scope

variable (previous current : PollingEntries)

/-- The turns of the loop over the removed entries that looks for renames. -/
def moveTurns : List (Option ChangeHint) :=
  let created := onlyIn current previous
  let removed := onlyIn previous current
  removed.map fun entry => (partner created removed entry).map (movedHint rootToken entry)

/-- The turns of the loop over the created entries. -/
def createTurns : List (Option ChangeHint) :=
  let created := onlyIn current previous
  let removed := onlyIn previous current
  created.map fun entry =>
    if removed.any fun before => partner created removed before = some entry then none
    else some (createdHint rootToken entry)

/-- The turns of the second loop over the removed entries. -/
def removeTurns : List (Option ChangeHint) :=
  let created := onlyIn current previous
  let removed := onlyIn previous current
  removed.map fun entry =>
    if (partner created removed entry).isSome then none else some (removedHint rootToken entry)

/-- The turns of the loop over the entries that are in both. -/
def changeTurns : List (Option ChangeHint) :=
  current.entries.map fun entry =>
    (previous.stamp entry.1).bind fun oldStamp =>
      if oldStamp = entry.2 then none else some (changedHint rootToken entry.1 oldStamp entry.2)

/-- All turns of the six loops: the first two find the created and the removed entries. -/
def pollingTurns : List (Option ChangeHint) :=
  current.entries.map (fun _ => none) ++ previous.entries.map (fun _ => none)
    ++ moveTurns rootToken previous current ++ createTurns rootToken previous current
    ++ removeTurns rootToken previous current ++ changeTurns rootToken previous current

end Hints

inductive PollingDiff where
  | hints (hints : List ChangeHint)
  | rescanRequired
  | cancelled
deriving DecidableEq

/-- The turns one after the other: each asks first whether the drain is cancelled, and `push_hint!`
gives up when the budget is used up. -/
def takeTurns (hintBudget : Nat) (polls : Nat → Bool) :
    Nat → List (Option ChangeHint) → List ChangeHint → PollingDiff
  | _, [], hints => .hints (coalesceChangeHints hints)
  | turn, next :: turns, hints =>
      if polls turn then .cancelled
      else
        match next with
        | none => takeTurns hintBudget polls (turn + 1) turns hints
        | some hint =>
            if hintBudget ≤ hints.length then .rescanRequired
            else takeTurns hintBudget polls (turn + 1) turns (hints ++ [hint])

/-- `diff_snapshots`. -/
def diffSnapshots (rootToken : String) (previous current : PollingEntries) (hintBudget : Nat)
    (polls : Nat → Bool) : PollingDiff :=
  takeTurns hintBudget polls 0 (pollingTurns rootToken previous current) []

/-! ## Drains -/

/-- What `snapshot` comes back with. -/
structure PollingSnapshot where
  entries : PollingEntries
  truncated : Bool
  cancelled : Bool

structure PollingState where
  rootToken : String
  snapshot : Option PollingEntries
  pendingRescan : Bool
  lastSnapshotAt : Nat

structure PollingChangeMonitor where
  pollInterval : Nat
  hintBudget : Nat

/-- What a drain meets: whether it is cancelled before it begins, the time, what it finds of the
root if it looks (the error is its text), and the polls of the comparison. -/
structure PollingLook where
  isCancelled : Bool
  now : Nat
  found : Except String PollingSnapshot
  polls : Nat → Bool

/-- The state `start` attaches, from a first look that nothing cancels. -/
def PollingState.started (rootToken : String) (now : Nat) (first : PollingSnapshot) :
    PollingState where
  rootToken
  snapshot := if first.truncated then none else some first.entries
  pendingRescan := first.truncated
  lastSnapshotAt := now

abbrev PollingAnswer := Except String (List ChangeHint)

/-- `drain_hints_with_cancellation`. -/
def PollingChangeMonitor.drain (monitor : PollingChangeMonitor) (state : PollingState)
    (look : PollingLook) : PollingAnswer × PollingState :=
  if look.isCancelled then (.ok [], state)
  else if state.pendingRescan then
    (.ok [rescanHint state.rootToken], { state with pendingRescan := false })
  else if look.now - state.lastSnapshotAt < monitor.pollInterval then (.ok [], state)
  else
    match look.found with
    | .error error => (.error error, state)
    | .ok current =>
        if current.cancelled then (.ok [], state)
        else if current.truncated then
          (.ok [rescanHint state.rootToken], { state with lastSnapshotAt := look.now })
        else
          let advanced : PollingState :=
            { state with lastSnapshotAt := look.now, snapshot := some current.entries }
          match state.snapshot with
          | none => (.ok [rescanHint state.rootToken], advanced)
          | some previous =>
              match diffSnapshots state.rootToken previous current.entries monitor.hintBudget
                look.polls with
              | .cancelled => (.ok [], state)
              | .rescanRequired => (.ok [rescanHint state.rootToken], advanced)
              | .hints hints => (.ok hints, advanced)

/-! ## What a comparison is to report -/

/-- The path was added or removed, or its stamp changed. -/
def Differs (previous current : PollingEntries) (path : RelPath) : Prop :=
  previous.stamp path ≠ current.stamp path

/-- What a hint says of the set of paths there are. -/
def ChangeHint.effect (hint : ChangeHint) (paths : Set RelPath) : Set RelPath :=
  match hint.kind with
  | .created | .moved | .removed =>
      {path | path ∈ paths ∧ hint.pathBefore ≠ some path ∨ hint.pathAfter = some path}
  | _ => paths

/-- The paths after the hints, one after the other. -/
def replay (hints : List ChangeHint) (paths : Set RelPath) : Set RelPath :=
  hints.foldl (fun paths hint => hint.effect paths) paths

def PollingEntries.paths (map : PollingEntries) : Set RelPath :=
  {path | (map.stamp path).isSome = true}

/-- The hint is a rename of a removed path to an added one with its stamp. -/
def PairsEqualStamps (previous current : PollingEntries) (hint : ChangeHint) : Prop :=
  ∃ before after stamp, hint.pathBefore = some before ∧ hint.pathAfter = some after
    ∧ previous.stamp before = some stamp ∧ current.stamp before = none
    ∧ current.stamp after = some stamp ∧ previous.stamp after = none

/-- The hints report the differences of two snapshots. -/
structure Reports (previous current : PollingEntries) (hints : List ChangeHint) : Prop where
  complete : ∀ path, Differs previous current path → ∃ hint ∈ hints, hint.Names path
  sound : ∀ hint ∈ hints, ∀ path, hint.Names path → Differs previous current path
  paired : ∀ hint ∈ hints, hint.kind = .moved → PairsEqualStamps previous current hint
  once : hints.Pairwise fun first second => first.kind = .moved → second.kind = .moved →
    first.pathBefore ≠ second.pathBefore ∧ first.pathAfter ≠ second.pathAfter
  replayed : ∀ order, order.Perm hints → replay order previous.paths = current.paths

/-! ## Replaying -/

section Replay

variable {hint : ChangeHint} {hints : List ChangeHint} {path : RelPath} {paths : Set RelPath}

/-- The hint takes the path away. -/
def ChangeHint.Takes (hint : ChangeHint) (path : RelPath) : Prop :=
  hint.kind ∈ [LocalEventKind.created, .moved, .removed] ∧ hint.pathBefore = some path

/-- The hint adds the path. -/
def ChangeHint.Adds (hint : ChangeHint) (path : RelPath) : Prop :=
  hint.kind ∈ [LocalEventKind.created, .moved, .removed] ∧ hint.pathAfter = some path

theorem mem_effect : path ∈ hint.effect paths ↔ path ∈ paths ∧ ¬hint.Takes path ∨ hint.Adds path := by
  unfold ChangeHint.effect ChangeHint.Takes ChangeHint.Adds
  cases hint.kind <;> simp

/-- When no path is both added and taken away the order of the hints does not matter. -/
theorem mem_replay
    (happart : ∀ hint ∈ hints, ∀ other ∈ hints, ¬(hint.Adds path ∧ other.Takes path)) :
    path ∈ replay hints paths ↔
      path ∈ paths ∧ (∀ hint ∈ hints, ¬hint.Takes path) ∨ ∃ hint ∈ hints, hint.Adds path := by
  induction hints generalizing paths with
  | nil => simp [replay]
  | cons first rest ih =>
    have hrest := @ih (first.effect paths) fun hint hhint other hother =>
      happart hint (List.mem_cons_of_mem _ hhint) other (List.mem_cons_of_mem _ hother)
    refine hrest.trans ?_
    rw [mem_effect, List.forall_mem_cons, List.exists_mem_cons_iff]
    constructor
    · rintro (⟨⟨hpath, hfirst⟩ | hadds, htakes⟩ | hadds)
      · exact .inl ⟨hpath, hfirst, htakes⟩
      · exact .inr (.inl hadds)
      · exact .inr (.inr hadds)
    · rintro (⟨hpath, hfirst, htakes⟩ | hadds | hadds)
      · exact .inl ⟨.inl ⟨hpath, hfirst⟩, htakes⟩
      · refine .inl ⟨.inr hadds, fun other hother htakes => ?_⟩
        exact happart first (List.mem_cons_self ..) other (List.mem_cons_of_mem _ hother)
          ⟨hadds, htakes⟩
      · exact .inr hadds

end Replay

/-! ## Coalescing hints of their own -/

/-- Hints with their own keys that are neither sides of a rename nor rescans of the root stay as they
are. -/
theorem coalesceChangeHints_eq_self {hints : List ChangeHint}
    (hnative : ∀ hint ∈ hints, hint.nativeKey = none)
    (hpartials : ∀ hint ∈ hints, hint.isPartialMove = false)
    (hrescan : ∀ hint ∈ hints, hint.isRootRescan = false)
    (hkeys : hints.Pairwise fun first second => first.coalesceKey ≠ second.coalesceKey) :
    coalesceChangeHints hints = hints := by
  have htracked : ∀ (rest output : List ChangeHint), (∀ hint ∈ rest, hint ∈ hints) →
      rest.foldl trackRename (output, []) = (output ++ rest, []) := by
    intro rest
    induction rest with
    | nil => exact fun output _ => by rw [List.append_nil]; rfl
    | cons hint rest ih =>
      intro output hmem
      have hhint := hmem hint (List.mem_cons_self ..)
      have hturn : trackRename (output, []) hint = (output ++ [hint], []) := by
        unfold trackRename
        simp only [hnative hint hhint, conservativeOneSidedMove, hpartials hint hhint]
        rfl
      rw [List.foldl_cons, hturn, ih _ fun h hh => hmem h (List.mem_cons_of_mem _ hh),
        List.append_assoc]
      rfl
  have hmerged : ∀ (rest before : List ChangeHint), before ++ rest = hints →
      rest.foldl coalesceHint (before.map fun hint => (hint.coalesceKey, hint), [])
        = (hints.map fun hint => (hint.coalesceKey, hint), []) := by
    intro rest
    induction rest with
    | nil => exact fun before h => by rw [← h, List.append_nil]; rfl
    | cons hint rest ih =>
      intro before h
      have hhint : hint ∈ hints := by rw [← h]; simp
      have hnone : lookup hint.coalesceKey (before.map fun hint => (hint.coalesceKey, hint))
          = none := by
        rw [lookup, Option.map_eq_none_iff, List.find?_eq_none]
        intro entry hentry
        obtain ⟨other, hother, rfl⟩ := List.mem_map.1 hentry
        rw [← h, List.pairwise_append] at hkeys
        simpa using hkeys.2.2 other hother hint (List.mem_cons_self ..)
      have hturn : coalesceHint (before.map fun hint => (hint.coalesceKey, hint), []) hint
          = ((before ++ [hint]).map fun hint => (hint.coalesceKey, hint), []) := by
        unfold coalesceHint mergeHint
        simp only [hrescan hint hhint, hnone, List.map_append, List.map_singleton]
        rfl
      rw [List.foldl_cons, hturn]
      exact ih (before ++ [hint]) (by rw [← h, List.append_assoc]; rfl)
  have houtput : coalesceTrackedRenames hints = hints := by
    unfold coalesceTrackedRenames
    rw [htracked hints [] fun _ h => h]
    simp
  rw [coalesceChangeHints, houtput]
  have hall := hmerged hints [] rfl
  rw [List.map_nil] at hall
  rw [hall, List.map_map]
  exact List.map_id' _

/-! ## The hints of a comparison -/

section Comparison

variable {rootToken : String} {previous current : PollingEntries} {hint : ChangeHint}
  {entry candidate : RelPath × PollingStamp} {path : RelPath}

theorem mem_onlyIn {map other : PollingEntries} :
    entry ∈ onlyIn map other ↔ map.stamp entry.1 = some entry.2 ∧ other.stamp entry.1 = none := by
  rw [onlyIn, List.mem_insertionSort, List.mem_filter, Option.isNone_iff_eq_none]
  exact and_congr_left' map.keyed.mem_iff_lookup

theorem onlyIn_pairwise (map other : PollingEntries) :
    (onlyIn map other).Pairwise fun first second => first.1 ≠ second.1 := by
  rw [← List.pairwise_map (R := (· ≠ ·))]
  refine ((List.perm_insertionSort _ _).map Prod.fst).nodup_iff.2 ?_
  exact map.keyed.sublist (List.filter_sublist.map _)

/-- A removed entry is paired with a created one when both are the only ones with their stamp. -/
theorem partner_eq_some {created removed : List (RelPath × PollingStamp)}
    (h : partner created removed entry = some candidate) :
    candidate ∈ created ∧ candidate.2 = entry.2
      ∧ ∀ other ∈ removed, entry ∈ removed → other.2 = entry.2 → other = entry := by
  unfold partner at h
  split at h
  · next found hfound =>
    split at h
    · next hcount =>
      obtain rfl := Option.some.inj h
      have hmem := List.mem_filter.1 (hfound ▸ List.mem_singleton_self found)
      refine ⟨hmem.1, of_decide_eq_true hmem.2, fun other hother hentry hstamp => ?_⟩
      rw [List.countP_eq_length_filter, List.length_eq_one_iff] at hcount
      obtain ⟨only, honly⟩ := hcount
      have hall : ∀ e ∈ removed, e.2 = entry.2 → e = only := fun e he hstamp =>
        List.mem_singleton.1 (honly ▸ List.mem_filter.2 ⟨he, decide_eq_true hstamp⟩)
      exact (hall other hother hstamp).trans (hall entry hentry rfl).symm
    · cases h
  · cases h

/-- The hints all turns push. -/
def pollingHints (rootToken : String) (previous current : PollingEntries) : List ChangeHint :=
  (pollingTurns rootToken previous current).filterMap id

theorem pollingHints_eq : pollingHints rootToken previous current
    = (moveTurns rootToken previous current).filterMap id
      ++ (createTurns rootToken previous current).filterMap id
      ++ (removeTurns rootToken previous current).filterMap id
      ++ (changeTurns rootToken previous current).filterMap id := by
  have hnone : ∀ entries : List (RelPath × PollingStamp),
      (entries.map fun _ => (none : Option ChangeHint)).filterMap id = [] := by
    intro entries
    induction entries with
    | nil => rfl
    | cons e rest ih => exact ih
  simp only [pollingHints, pollingTurns, List.filterMap_append, hnone, List.nil_append]

/-- A removed path and the added one it is paired with. -/
def IsMove (rootToken : String) (previous current : PollingEntries) (hint : ChangeHint) : Prop :=
  ∃ before ∈ onlyIn previous current, ∃ after,
    partner (onlyIn current previous) (onlyIn previous current) before = some after
      ∧ movedHint rootToken before after = hint

def IsCreation (rootToken : String) (previous current : PollingEntries) (hint : ChangeHint) : Prop :=
  ∃ entry ∈ onlyIn current previous,
    (∀ before ∈ onlyIn previous current,
      partner (onlyIn current previous) (onlyIn previous current) before ≠ some entry)
      ∧ createdHint rootToken entry = hint

def IsRemoval (rootToken : String) (previous current : PollingEntries) (hint : ChangeHint) : Prop :=
  ∃ entry ∈ onlyIn previous current,
    partner (onlyIn current previous) (onlyIn previous current) entry = none
      ∧ removedHint rootToken entry = hint

def IsChange (rootToken : String) (previous current : PollingEntries) (hint : ChangeHint) : Prop :=
  ∃ path oldStamp stamp, previous.stamp path = some oldStamp ∧ current.stamp path = some stamp
    ∧ oldStamp ≠ stamp ∧ changedHint rootToken path oldStamp stamp = hint

theorem mem_moveTurns : hint ∈ (moveTurns rootToken previous current).filterMap id ↔
    IsMove rootToken previous current hint := by
  simp [moveTurns, IsMove, Option.map_eq_some_iff]

theorem mem_createTurns : hint ∈ (createTurns rootToken previous current).filterMap id ↔
    IsCreation rootToken previous current hint := by
  simp [createTurns, IsCreation]

theorem mem_removeTurns : hint ∈ (removeTurns rootToken previous current).filterMap id ↔
    IsRemoval rootToken previous current hint := by
  simp [removeTurns, IsRemoval]

theorem mem_changeTurns : hint ∈ (changeTurns rootToken previous current).filterMap id ↔
    IsChange rootToken previous current hint := by
  simp only [List.mem_filterMap, id, changeTurns, List.mem_map, IsChange]
  constructor
  · rintro ⟨_, ⟨entry, hentry, rfl⟩, hturn⟩
    obtain ⟨oldStamp, hold, hpush⟩ := Option.bind_eq_some_iff.1 hturn
    split at hpush
    · cases hpush
    · next hne =>
      exact ⟨entry.1, oldStamp, entry.2, hold, current.keyed.mem_iff_lookup.1 hentry, hne,
        Option.some.inj hpush⟩
  · rintro ⟨path, oldStamp, stamp, hold, hstamp, hne, rfl⟩
    refine ⟨_, ⟨(path, stamp), current.keyed.mem_iff_lookup.2 hstamp, rfl⟩, ?_⟩
    rw [hold, Option.bind_some, if_neg hne]

theorem mem_pollingHints : hint ∈ pollingHints rootToken previous current ↔
    IsMove rootToken previous current hint ∨ IsCreation rootToken previous current hint
      ∨ IsRemoval rootToken previous current hint ∨ IsChange rootToken previous current hint := by
  rw [pollingHints_eq, List.mem_append, List.mem_append, List.mem_append, mem_moveTurns,
    mem_createTurns, mem_removeTurns, mem_changeTurns, or_assoc, or_assoc]

/-! ### What the hints name -/

@[simp] theorem names_movedHint {before after : RelPath × PollingStamp} :
    (movedHint rootToken before after).Names path ↔ path = after.1 ∨ path = before.1 := by
  simp [ChangeHint.Names, movedHint, eq_comm]

@[simp] theorem names_createdHint : (createdHint rootToken entry).Names path ↔ path = entry.1 := by
  simp [ChangeHint.Names, createdHint, eq_comm]

@[simp] theorem names_removedHint : (removedHint rootToken entry).Names path ↔ path = entry.1 := by
  simp [ChangeHint.Names, removedHint, eq_comm]

@[simp] theorem names_changedHint {changed : RelPath} {oldStamp stamp : PollingStamp} :
    (changedHint rootToken changed oldStamp stamp).Names path ↔ path = changed := by
  simp only [ChangeHint.Names, changedHint]
  constructor
  · rintro (h | h)
    · exact (Option.some.inj h).symm
    · split at h
      · exact (Option.some.inj h).symm
      · cases h
  · rintro rfl
    exact .inl rfl

theorem IsMove.names (h : IsMove rootToken previous current hint) :
    PairsEqualStamps previous current hint ∧ hint.kind = .moved ∧ hint.nativeKey = none
      ∧ hint.rootToken = rootToken := by
  obtain ⟨before, hbefore, after, hpartner, rfl⟩ := h
  obtain ⟨hafter, hstamp, -⟩ := partner_eq_some hpartner
  rw [mem_onlyIn] at hbefore hafter
  exact ⟨⟨before.1, after.1, before.2, rfl, rfl, hbefore.1, hbefore.2, hstamp ▸ hafter.1,
    hafter.2⟩, rfl, rfl, rfl⟩

/-- A path a change names is in both snapshots. -/
theorem IsChange.names (h : IsChange rootToken previous current hint) (hpath : hint.Names path) :
    ∃ oldStamp stamp, previous.stamp path = some oldStamp ∧ current.stamp path = some stamp
      ∧ oldStamp ≠ stamp := by
  obtain ⟨changed, oldStamp, stamp, hold, hstamp, hne, rfl⟩ := h
  obtain rfl := names_changedHint.1 hpath
  exact ⟨oldStamp, stamp, hold, hstamp, hne⟩

theorem IsChange.not_effect (h : IsChange rootToken previous current hint) :
    hint.kind ∉ [LocalEventKind.created, .moved, .removed] := by
  obtain ⟨changed, oldStamp, stamp, -, -, -, rfl⟩ := h
  simp only [changedHint]
  split
  · simp
  · split <;> simp

/-- A hint names paths that differ. -/
theorem names_differs (h : hint ∈ pollingHints rootToken previous current)
    (hpath : hint.Names path) : Differs previous current path := by
  unfold Differs
  rcases mem_pollingHints.1 h with h | ⟨entry, hentry, -, rfl⟩ | ⟨entry, hentry, -, rfl⟩ | h
  · obtain ⟨⟨before, after, stamp, hb, ha, hbefore, hgone, hafter, hnew⟩, -⟩ := h.names
    rcases hpath with hpath | hpath
    · obtain rfl := Option.some.inj (ha.symm.trans hpath)
      simp [hafter, hnew]
    · obtain rfl := Option.some.inj (hb.symm.trans hpath)
      simp [hbefore, hgone]
  · rcases hpath with hpath | hpath
    · obtain rfl := Option.some.inj hpath
      simp [mem_onlyIn.1 hentry]
    · cases hpath
  · rcases hpath with hpath | hpath
    · cases hpath
    · obtain rfl := Option.some.inj hpath
      simp [mem_onlyIn.1 hentry]
  · obtain ⟨oldStamp, stamp, hold, hstamp, hne⟩ := h.names hpath
    rw [hold, hstamp]
    exact fun heq => hne (Option.some.inj heq)

/-- Exactly the removed paths are taken away. -/
theorem exists_takes_iff :
    (∃ hint ∈ pollingHints rootToken previous current, hint.Takes path) ↔
      (previous.stamp path).isSome = true ∧ current.stamp path = none := by
  constructor
  · rintro ⟨hint, h, hkind, hpath⟩
    rcases mem_pollingHints.1 h with h | ⟨entry, hentry, -, rfl⟩ | ⟨entry, hentry, -, rfl⟩ | h
    · obtain ⟨⟨before, after, stamp, hb, -, hbefore, hgone, -⟩, -⟩ := h.names
      obtain rfl := Option.some.inj (hb.symm.trans hpath)
      exact ⟨by rw [hbefore]; rfl, hgone⟩
    · cases hpath
    · obtain rfl := Option.some.inj hpath
      obtain ⟨hentry, hgone⟩ := mem_onlyIn.1 hentry
      exact ⟨by rw [hentry]; rfl, hgone⟩
    · exact absurd hkind h.not_effect
  · rintro ⟨hsome, hnone⟩
    obtain ⟨stamp, hstamp⟩ := Option.isSome_iff_exists.1 hsome
    have hentry : (path, stamp) ∈ onlyIn previous current := mem_onlyIn.2 ⟨hstamp, hnone⟩
    cases hpartner : partner (onlyIn current previous) (onlyIn previous current) (path, stamp) with
    | none =>
      exact ⟨_, mem_pollingHints.2 (.inr (.inr (.inl ⟨_, hentry, hpartner, rfl⟩))),
        by simp [removedHint], rfl⟩
    | some after =>
      exact ⟨_, mem_pollingHints.2 (.inl ⟨_, hentry, after, hpartner, rfl⟩),
        by simp [movedHint], rfl⟩

/-- Exactly the added paths are added. -/
theorem exists_adds_iff :
    (∃ hint ∈ pollingHints rootToken previous current, hint.Adds path) ↔
      (current.stamp path).isSome = true ∧ previous.stamp path = none := by
  constructor
  · rintro ⟨hint, h, hkind, hpath⟩
    rcases mem_pollingHints.1 h with h | ⟨entry, hentry, -, rfl⟩ | ⟨entry, hentry, -, rfl⟩ | h
    · obtain ⟨⟨before, after, stamp, -, ha, -, -, hafter, hnew⟩, -⟩ := h.names
      obtain rfl := Option.some.inj (ha.symm.trans hpath)
      exact ⟨by rw [hafter]; rfl, hnew⟩
    · obtain rfl := Option.some.inj hpath
      obtain ⟨hentry, hnew⟩ := mem_onlyIn.1 hentry
      exact ⟨by rw [hentry]; rfl, hnew⟩
    · cases hpath
    · exact absurd hkind h.not_effect
  · rintro ⟨hsome, hnone⟩
    obtain ⟨stamp, hstamp⟩ := Option.isSome_iff_exists.1 hsome
    have hentry : (path, stamp) ∈ onlyIn current previous := mem_onlyIn.2 ⟨hstamp, hnone⟩
    by_cases hpaired : ∃ before ∈ onlyIn previous current,
        partner (onlyIn current previous) (onlyIn previous current) before = some (path, stamp)
    · obtain ⟨before, hbefore, hpartner⟩ := hpaired
      exact ⟨_, mem_pollingHints.2 (.inl ⟨before, hbefore, _, hpartner, rfl⟩),
        by simp [movedHint], rfl⟩
    · refine ⟨_, mem_pollingHints.2 (.inr (.inl ⟨_, hentry, fun before hbefore hpartner => ?_, rfl⟩)),
        by simp [createdHint], rfl⟩
      exact hpaired ⟨before, hbefore, hpartner⟩

/-- Every path that differs is named. -/
theorem exists_names (h : Differs previous current path) :
    ∃ hint ∈ pollingHints rootToken previous current, hint.Names path := by
  cases hold : previous.stamp path with
  | none =>
    have hsome : (current.stamp path).isSome = true := by
      rw [Option.isSome_iff_ne_none]
      exact fun hnone => h (hold.trans hnone.symm)
    obtain ⟨hint, hhint, hadds⟩ := exists_adds_iff.2 ⟨hsome, hold⟩
    exact ⟨hint, hhint, .inl hadds.2⟩
  | some oldStamp =>
    cases hstamp : current.stamp path with
    | none =>
      obtain ⟨hint, hhint, htakes⟩ := exists_takes_iff.2 ⟨by rw [hold]; rfl, hstamp⟩
      exact ⟨hint, hhint, .inr htakes.2⟩
    | some stamp =>
      refine ⟨_, mem_pollingHints.2 (.inr (.inr (.inr ⟨path, oldStamp, stamp, hold, hstamp,
        fun heq => h ?_, rfl⟩))), .inl rfl⟩
      rw [hold, hstamp, heq]

/-! ### No path is named twice -/

/-- The hints name different paths. -/
def ChangeHint.Apart (first second : ChangeHint) : Prop :=
  ∀ path, first.Names path → ¬second.Names path

theorem onlyIn_inj {map other : PollingEntries} (hentry : entry ∈ onlyIn map other)
    (hcandidate : candidate ∈ onlyIn map other) (h : entry.1 = candidate.1) : entry = candidate := by
  refine Prod.ext h (Option.some.inj ?_)
  rw [← (mem_onlyIn.1 hentry).1, ← (mem_onlyIn.1 hcandidate).1, h]

/-- A path of one snapshot only is not one of the other only. -/
theorem onlyIn_ne {map other : PollingEntries} (hentry : entry ∈ onlyIn map other)
    (hcandidate : candidate ∈ onlyIn other map) : entry.1 ≠ candidate.1 := by
  intro h
  have hsome := (mem_onlyIn.1 hentry).1
  rw [h, (mem_onlyIn.1 hcandidate).2] at hsome
  cases hsome

/-- What a change names is in both snapshots, so no other hint names it. -/
theorem IsChange.apart {other : ChangeHint} (h : IsChange rootToken previous current hint)
    (hother : ∀ path, other.Names path →
      previous.stamp path = none ∨ current.stamp path = none) : other.Apart hint := by
  intro path hpath hnames
  obtain ⟨oldStamp, stamp, hold, hstamp, -⟩ := h.names hnames
  rcases hother path hpath with hnone | hnone
  · rw [hnone] at hold
    cases hold
  · rw [hnone] at hstamp
    cases hstamp

theorem moves_apart :
    ((moveTurns rootToken previous current).filterMap id).Pairwise ChangeHint.Apart := by
  rw [List.pairwise_filterMap, moveTurns, List.pairwise_map]
  refine (onlyIn_pairwise previous current).imp_of_mem fun {first second} hfirst hsecond hne => ?_
  rintro hint hhint other hother path hpath hnames
  obtain ⟨after, hafter, rfl⟩ := Option.map_eq_some_iff.1 hhint
  obtain ⟨after', hafter', rfl⟩ := Option.map_eq_some_iff.1 hother
  obtain ⟨hmem, hstamp, honly⟩ := partner_eq_some hafter
  obtain ⟨hmem', hstamp', -⟩ := partner_eq_some hafter'
  rw [names_movedHint] at hpath hnames
  rcases hpath with rfl | rfl
  · rcases hnames with hnames | hnames
    · -- one created entry for two removed ones, which then have one stamp
      have hsame := onlyIn_inj hmem hmem' hnames
      exact hne (congrArg Prod.fst (honly second hsecond hfirst
        (hstamp'.symm.trans (hsame ▸ hstamp)))).symm
    · exact onlyIn_ne hmem hsecond hnames
  · rcases hnames with hnames | hnames
    · exact onlyIn_ne hfirst hmem' hnames
    · exact hne hnames

theorem pollingHints_apart :
    (pollingHints rootToken previous current).Pairwise ChangeHint.Apart := by
  rw [pollingHints_eq, List.pairwise_append, List.pairwise_append, List.pairwise_append]
  refine ⟨⟨⟨moves_apart, ?_, ?_⟩, ?_, ?_⟩, ?_, ?_⟩
  · -- two creations
    rw [List.pairwise_filterMap, createTurns, List.pairwise_map]
    refine (onlyIn_pairwise current previous).imp fun {first second} hne => ?_
    intro hint hhint other hother path hpath hnames
    dsimp only [id] at hhint hother
    split at hhint
    · cases hhint
    · split at hother
      · cases hother
      · obtain rfl := Option.some.inj hhint
        obtain rfl := Option.some.inj hother
        exact hne ((names_createdHint.1 hpath).symm.trans (names_createdHint.1 hnames))
  · -- a rename and a creation
    intro hint hhint other hother path hpath hnames
    obtain ⟨before, hbefore, after, hpartner, rfl⟩ := mem_moveTurns.1 hhint
    obtain ⟨entry, hentry, hfree, rfl⟩ := mem_createTurns.1 hother
    rw [names_createdHint] at hnames
    rcases names_movedHint.1 hpath with rfl | rfl
    · obtain rfl := onlyIn_inj (partner_eq_some hpartner).1 hentry hnames
      exact hfree before hbefore hpartner
    · exact onlyIn_ne hbefore hentry hnames
  · -- two removals
    rw [List.pairwise_filterMap, removeTurns, List.pairwise_map]
    refine (onlyIn_pairwise previous current).imp fun {first second} hne => ?_
    intro hint hhint other hother path hpath hnames
    dsimp only [id] at hhint hother
    split at hhint
    · cases hhint
    · split at hother
      · cases hother
      · obtain rfl := Option.some.inj hhint
        obtain rfl := Option.some.inj hother
        exact hne ((names_removedHint.1 hpath).symm.trans (names_removedHint.1 hnames))
  · -- a removal behind a rename or a creation
    intro hint hhint other hother path hpath hnames
    obtain ⟨entry, hentry, hfree, rfl⟩ := mem_removeTurns.1 hother
    obtain rfl := names_removedHint.1 hnames
    rcases List.mem_append.1 hhint with hhint | hhint
    · obtain ⟨before, hbefore, after, hpartner, rfl⟩ := mem_moveTurns.1 hhint
      rcases names_movedHint.1 hpath with hsame | hsame
      · exact onlyIn_ne hentry (partner_eq_some hpartner).1 hsame
      · obtain rfl := onlyIn_inj hentry hbefore hsame
        rw [hfree] at hpartner
        cases hpartner
    · obtain ⟨created, hcreated, -, rfl⟩ := mem_createTurns.1 hhint
      exact onlyIn_ne hentry hcreated (names_createdHint.1 hpath)
  · -- two changes
    rw [List.pairwise_filterMap, changeTurns, List.pairwise_map]
    refine (List.pairwise_map.1 current.keyed).imp fun {first second} hne => ?_
    intro hint hhint other hother path hpath hnames
    obtain ⟨oldStamp, -, hhint⟩ := Option.bind_eq_some_iff.1 hhint
    obtain ⟨oldStamp', -, hother⟩ := Option.bind_eq_some_iff.1 hother
    split at hhint
    · cases hhint
    · split at hother
      · cases hother
      · obtain rfl := Option.some.inj hhint
        obtain rfl := Option.some.inj hother
        exact hne ((names_changedHint.1 hpath).symm.trans (names_changedHint.1 hnames))
  · -- a change behind the others
    intro hint hhint other hother
    refine (mem_changeTurns.1 hother).apart fun path hpath => ?_
    rcases List.mem_append.1 hhint with hhint | hhint
    · rcases List.mem_append.1 hhint with hhint | hhint
      · obtain ⟨before, hbefore, after, hpartner, rfl⟩ := mem_moveTurns.1 hhint
        rcases names_movedHint.1 hpath with rfl | rfl
        · exact .inl (mem_onlyIn.1 (partner_eq_some hpartner).1).2
        · exact .inr (mem_onlyIn.1 hbefore).2
      · obtain ⟨created, hcreated, -, rfl⟩ := mem_createTurns.1 hhint
        obtain rfl := names_createdHint.1 hpath
        exact .inl (mem_onlyIn.1 hcreated).2
    · obtain ⟨removed, hremoved, -, rfl⟩ := mem_removeTurns.1 hhint
      obtain rfl := names_removedHint.1 hpath
      exact .inr (mem_onlyIn.1 hremoved).2

end Comparison

/-! ## The comparison -/

section Diff

variable {rootToken : String} {previous current : PollingEntries} {hints : List ChangeHint}
  {hintBudget : Nat} {polls : Nat → Bool}

/-- When the turns end they have pushed all their hints. -/
theorem takeTurns_eq_hints {turns : List (Option ChangeHint)} {turn : Nat} {pushed : List ChangeHint}
    (h : takeTurns hintBudget polls turn turns pushed = .hints hints) :
    hints = coalesceChangeHints (pushed ++ turns.filterMap id) := by
  induction turns generalizing turn pushed with
  | nil =>
    rw [List.filterMap_nil, List.append_nil]
    exact (PollingDiff.hints.inj h).symm
  | cons next turns ih =>
    unfold takeTurns at h
    split at h
    · cases h
    · cases next with
      | none => exact ih h
      | some hint =>
        dsimp only at h
        split at h
        · cases h
        · rw [ih h, List.append_assoc]
          rfl

/-- Turns that nothing cancels are not cancelled. -/
theorem takeTurns_ne_cancelled {turns : List (Option ChangeHint)} (hpolls : ∀ turn, polls turn = false)
    {turn : Nat} {pushed : List ChangeHint} :
    takeTurns hintBudget polls turn turns pushed ≠ .cancelled := by
  induction turns generalizing turn pushed with
  | nil => exact fun h => (nomatch h)
  | cons next turns ih =>
    unfold takeTurns
    rw [hpolls turn, if_neg Bool.noConfusion]
    cases next with
    | none => exact ih
    | some hint =>
      dsimp only
      split
      · exact fun h => (nomatch h)
      · exact ih

/-- A hint names a path, and is no side of a rename. -/
theorem pollingHint_shape {hint : ChangeHint} (h : hint ∈ pollingHints rootToken previous current) :
    hint.nativeKey = none ∧ hint.isPartialMove = false ∧ ∃ path, hint.Names path := by
  rcases mem_pollingHints.1 h with ⟨before, -, after, -, rfl⟩ | ⟨entry, -, -, rfl⟩
    | ⟨entry, -, -, rfl⟩ | hchange
  · exact ⟨rfl, rfl, after.1, .inl rfl⟩
  · exact ⟨rfl, rfl, entry.1, .inl rfl⟩
  · exact ⟨rfl, rfl, entry.1, .inr rfl⟩
  · have hkind : hint.kind ≠ .moved := fun h => hchange.not_effect (by simp [h])
    obtain ⟨path, oldStamp, stamp, -, -, -, rfl⟩ := hchange
    refine ⟨rfl, ?_, path, .inl rfl⟩
    rw [ChangeHint.isPartialMove, decide_eq_false hkind, Bool.false_and]

/-- Coalescing leaves the hints of a comparison as they are. -/
theorem coalesce_pollingHints :
    coalesceChangeHints (pollingHints rootToken previous current)
      = pollingHints rootToken previous current := by
  refine coalesceChangeHints_eq_self (fun hint h => (pollingHint_shape h).1)
    (fun hint h => (pollingHint_shape h).2.1) (fun hint h => ?_) ?_
  · obtain ⟨-, -, path, hpath⟩ := pollingHint_shape h
    rw [ChangeHint.isRootRescan, ChangeHint.isPathless]
    rcases hpath with hpath | hpath <;> simp [hpath]
  · refine pollingHints_apart.imp_of_mem fun {first second} hfirst hsecond hapart hkey => ?_
    obtain ⟨-, -, path, hpath⟩ := pollingHint_shape hfirst
    refine hapart path hpath ?_
    rcases hpath with hpath | hpath
    · exact .inl ((congrArg CoalesceKey.pathAfter hkey).symm.trans hpath)
    · exact .inr ((congrArg CoalesceKey.pathBefore hkey).symm.trans hpath)

theorem isMove_of_kind {hint : ChangeHint} (h : hint ∈ pollingHints rootToken previous current)
    (hkind : hint.kind = .moved) : IsMove rootToken previous current hint := by
  rcases mem_pollingHints.1 h with hmove | ⟨entry, -, -, rfl⟩ | ⟨entry, -, -, rfl⟩ | hchange
  · exact hmove
  · cases hkind
  · cases hkind
  · exact absurd (by simp [hkind]) hchange.not_effect

/-- The hints of a comparison report the differences. -/
theorem pollingHints_reports :
    Reports previous current (pollingHints rootToken previous current) where
  complete := fun _ h => exists_names h
  sound := fun _ hhint _ hpath => names_differs hhint hpath
  paired := fun _ hhint hkind => (isMove_of_kind hhint hkind).names.1
  once := by
    refine pollingHints_apart.imp_of_mem fun {first second} hfirst _ hapart hkind _ => ?_
    obtain ⟨before, after, -, hb, ha, -⟩ := (isMove_of_kind hfirst hkind).names.1
    exact ⟨fun h => hapart before (.inr hb) (.inr (h.symm.trans hb)),
      fun h => hapart after (.inl ha) (.inl (h.symm.trans ha))⟩
  replayed := by
    intro order horder
    have htakes (path : RelPath) : (∃ hint ∈ order, hint.Takes path) ↔
        (previous.stamp path).isSome = true ∧ current.stamp path = none := by
      rw [← @exists_takes_iff rootToken]
      simp only [horder.mem_iff]
    have hadds (path : RelPath) : (∃ hint ∈ order, hint.Adds path) ↔
        (current.stamp path).isSome = true ∧ previous.stamp path = none := by
      rw [← @exists_adds_iff rootToken]
      simp only [horder.mem_iff]
    ext path
    have happart : ∀ hint ∈ order, ∀ other ∈ order, ¬(hint.Adds path ∧ other.Takes path) := by
      intro hint hhint other hother hboth
      have hnone := ((htakes path).1 ⟨other, hother, hboth.2⟩).2
      have hsome := ((hadds path).1 ⟨hint, hhint, hboth.1⟩).1
      rw [hnone] at hsome
      cases hsome
    have hkept : (∀ hint ∈ order, ¬hint.Takes path) ↔ ¬∃ hint ∈ order, hint.Takes path := by
      simp only [not_exists, not_and]
    rw [mem_replay happart, hadds, hkept, htakes]
    simp only [PollingEntries.paths, Set.mem_ofPred_eq]
    cases previous.stamp path <;> cases current.stamp path <;> simp

theorem diffSnapshots_reports
    (h : diffSnapshots rootToken previous current hintBudget polls = .hints hints) :
    Reports previous current hints := by
  rw [takeTurns_eq_hints h, List.nil_append]
  exact coalesce_pollingHints.symm ▸ pollingHints_reports

/-- What a report is about are the stamps. -/
theorem Reports.congr {other : PollingEntries} (h : Reports previous current hints)
    (hsame : previous.stamp = other.stamp) : Reports other current hints where
  complete := by simpa only [Differs, hsame] using h.complete
  sound := by simpa only [Differs, hsame] using h.sound
  paired := by simpa only [PairsEqualStamps, hsame] using h.paired
  once := h.once
  replayed := by simpa only [PollingEntries.paths, hsame] using h.replayed

/-- No hints report that nothing changed. -/
theorem Reports.same (h : Reports previous current []) : previous.stamp = current.stamp := by
  funext path
  by_contra hdiffers
  obtain ⟨hint, hhint, -⟩ := h.complete path hdiffers
  cases hhint

end Diff

/-! ## Every drain -/

/-- The complete snapshot a drain takes: it looks, and the look is neither cut nor cancelled. -/
def PollingChangeMonitor.takes (monitor : PollingChangeMonitor) (state : PollingState)
    (look : PollingLook) : Option PollingEntries :=
  if look.isCancelled ∨ state.pendingRescan
      ∨ look.now - state.lastSnapshotAt < monitor.pollInterval then none
  else
    match look.found with
    | .error _ => none
    | .ok current => if current.cancelled ∨ current.truncated then none else some current.entries

/-- An answer reports the differences of a snapshot from the one that was kept: it asks to look at
the whole root again, or its hints report them. -/
def Reported (rootToken : String) (kept : Option PollingEntries) (current : PollingEntries)
    (answer : PollingAnswer) : Prop :=
  answer = .ok [rescanHint rootToken]
    ∨ ∃ previous hints, kept = some previous ∧ answer = .ok hints
      ∧ Reports previous current hints

open Classical in
/-- The last complete snapshot whose differences were reported, after one more drain. -/
noncomputable def PollingChangeMonitor.lastReported (monitor : PollingChangeMonitor)
    (look : PollingLook) (state : PollingState) (kept : Option PollingEntries) :
    Option PollingEntries :=
  match monitor.takes state look with
  | none => kept
  | some current =>
      if Reported state.rootToken kept current (monitor.drain state look).1 then some current
      else kept

section Drains

variable {monitor : PollingChangeMonitor} {state : PollingState} {look : PollingLook}
  {current : PollingEntries}

/-- What a drain that takes a complete snapshot does. -/
theorem drain_of_takes (h : monitor.takes state look = some current) :
    (∃ advanced : PollingState, advanced.snapshot = some current
      ∧ ((∃ previous hints, state.snapshot = some previous ∧ Reports previous current hints
            ∧ monitor.drain state look = (.ok hints, advanced))
          ∨ monitor.drain state look = (.ok [rescanHint state.rootToken], advanced)))
      ∨ (¬∀ turn, look.polls turn = false) ∧ monitor.drain state look = (.ok [], state) := by
  unfold PollingChangeMonitor.takes at h
  split at h
  · cases h
  · next hlooks =>
    obtain ⟨hcancelled, hpending, hinterval⟩ : ¬look.isCancelled = true
        ∧ ¬state.pendingRescan = true
        ∧ ¬look.now - state.lastSnapshotAt < monitor.pollInterval := by
      simpa only [not_or] using hlooks
    split at h
    · cases h
    · next found hfound =>
      split at h
      · cases h
      · next hcomplete =>
        obtain ⟨hfoundCancelled, htruncated⟩ := not_or.1 hcomplete
        obtain rfl := Option.some.inj h
        unfold PollingChangeMonitor.drain
        rw [if_neg hcancelled, if_neg hpending, if_neg hinterval, hfound]
        simp only [if_neg hfoundCancelled, if_neg htruncated]
        obtain ⟨advanced, hadvanced⟩ : ∃ advanced : PollingState, advanced =
            { state with lastSnapshotAt := look.now, snapshot := some found.entries } := ⟨_, rfl⟩
        rw [← hadvanced]
        have hsnapshot' : advanced.snapshot = some found.entries := by rw [hadvanced]
        cases hsnapshot : state.snapshot with
        | none => exact .inl ⟨advanced, hsnapshot', .inr rfl⟩
        | some previous =>
          dsimp only
          cases hdiff : diffSnapshots state.rootToken previous found.entries monitor.hintBudget
              look.polls with
          | hints hints =>
            exact .inl ⟨advanced, hsnapshot', .inl
              ⟨previous, hints, rfl, diffSnapshots_reports hdiff, rfl⟩⟩
          | rescanRequired => exact .inl ⟨advanced, hsnapshot', .inr rfl⟩
          | cancelled =>
            exact .inr ⟨fun hpolls => takeTurns_ne_cancelled hpolls hdiff, rfl⟩

/-- A drain that takes no complete snapshot keeps the one there is. -/
theorem drain_of_not_takes (h : monitor.takes state look = none) :
    (monitor.drain state look).2.snapshot = state.snapshot := by
  unfold PollingChangeMonitor.takes at h
  unfold PollingChangeMonitor.drain
  split
  · rfl
  · split
    · rfl
    · split
      · rfl
      · next hcancelled hpending hinterval =>
        rw [if_neg (by simp only [not_or]; exact ⟨hcancelled, hpending, hinterval⟩)] at h
        split
        · rfl
        · next found hfound =>
          rw [hfound] at h
          dsimp only at h ⊢
          split
          · rfl
          · split
            · rfl
            · next hfoundCancelled htruncated =>
              rw [if_neg (not_or.2 ⟨hfoundCancelled, htruncated⟩)] at h
              cases h

/-- A drain that nothing cancels reports what it finds. -/
theorem drain_reports (h : monitor.takes state look = some current)
    (hpolls : ∀ turn, look.polls turn = false) :
    Reported state.rootToken state.snapshot current (monitor.drain state look).1 := by
  rcases drain_of_takes h with ⟨advanced, -, ⟨previous, hints, hprevious, hreports, hdrain⟩
    | hdrain⟩ | ⟨hcancelled, -⟩
  · rw [hdrain]
    exact .inr ⟨previous, hints, hprevious, rfl, hreports⟩
  · rw [hdrain]
    exact .inl rfl
  · exact absurd hpolls hcancelled

/-- The snapshot that is kept stays the last one that was reported. -/
theorem drain_lastReported {kept : Option PollingEntries}
    (h : state.snapshot.map PollingEntries.stamp = kept.map PollingEntries.stamp) :
    (monitor.drain state look).2.snapshot.map PollingEntries.stamp
      = (monitor.lastReported look state kept).map PollingEntries.stamp := by
  unfold PollingChangeMonitor.lastReported
  cases htakes : monitor.takes state look with
  | none => rw [drain_of_not_takes htakes, h]
  | some current =>
    dsimp only
    rcases drain_of_takes htakes with ⟨advanced, hadvanced, ⟨previous, hints, hprevious,
      hreports, hdrain⟩ | hdrain⟩ | ⟨-, hdrain⟩
    · obtain ⟨other, hother, hsame⟩ : ∃ other, kept = some other
          ∧ other.stamp = previous.stamp := by
        rw [hprevious] at h
        exact Option.map_eq_some_iff.1 h.symm
      rw [hdrain, if_pos (.inr ⟨other, hints, hother, rfl, hreports.congr hsame.symm⟩), hadvanced]
    · rw [hdrain, if_pos (.inl rfl), hadvanced]
    · rw [hdrain]
      split
      · next hreported =>
        -- cancelled, but there was nothing to report
        rcases hreported with hreported | ⟨other, hints, rfl, hhints, hreports⟩
        · cases hreported
        · obtain rfl := Except.ok.inj hhints
          exact h.trans (congrArg some hreports.same)
      · exact h

/-- **The polling monitor reports every difference.** A drain that nothing cancels and that takes a
complete snapshot asks to look at the whole root again, or its hints report the differences from the
snapshot that was kept. After every run of drains, whatever they meet, the snapshot that is kept is
the last complete one whose differences were reported. -/
theorem polling_reports_every_difference (monitor : PollingChangeMonitor) :
    (∀ state look current, monitor.takes state look = some current →
      (∀ turn, look.polls turn = false) →
      Reported state.rootToken state.snapshot current (monitor.drain state look).1)
    ∧ ∀ rootToken now first (looks : List PollingLook),
        let start := PollingState.started rootToken now first
        let reached := Run.afterWith (fun look state => (monitor.drain state look).2)
          monitor.lastReported start start.snapshot looks
        reached.1.snapshot.map PollingEntries.stamp = reached.2.map PollingEntries.stamp := by
  refine ⟨fun state look current h hpolls => drain_reports h hpolls, ?_⟩
  intro rootToken now first looks start reached
  exact Run.invariantWith (J := fun (state : PollingState) (kept : Option PollingEntries) =>
    state.snapshot.map PollingEntries.stamp = kept.map PollingEntries.stamp)
    (fun look state kept h => drain_lastReported h) looks rfl

def noEntries : PollingEntries := ⟨[], List.nodup_nil⟩

def oneEntry : PollingEntries := ⟨[(["a.txt"], ⟨.file, 1, 1, false⟩)], List.nodup_singleton _⟩

/-- A look at a root with one new file. -/
theorem polling_reports_every_difference_created :
    Reported "root" (some noEntries) oneEntry
      (PollingChangeMonitor.drain ⟨0, 8⟩ (.started "root" 0 ⟨noEntries, false, false⟩)
        ⟨false, 1, .ok ⟨oneEntry, false, false⟩, fun _ => false⟩).1 :=
  (polling_reports_every_difference ⟨0, 8⟩).1 _ _ _ rfl fun _ => rfl

end Drains

end Zemo.Watcher
