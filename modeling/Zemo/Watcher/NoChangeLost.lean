import Zemo.Watcher.Covering

set_option autoImplicit false

/-! # The watcher loses no change

A path some hint names is covered by what the watcher hands out, at the latest when the rename it
may be a side of expires. This holds in every run in which no drain forgets a pending side: a batch
that asks for a rescan makes the watcher forget all of them, and only a rescan of the whole root
makes up for it. -/

namespace Zemo.Watcher

variable {rootToken : String} {path : RelPath} {hint : ChangeHint} (now : Nat)

/-! ## Sides that wait -/

/-- The pending sides of the watcher of a root. -/
structure Waiting (rootToken : String) (pending : PendingRenames) : Prop where
  keyed : KeyedList.Keyed pending
  sides : ∀ entry ∈ pending,
    entry.2.hint.isPartialMove = true ∧ entry.2.hint.rootToken = rootToken

theorem Waiting.nil : Waiting rootToken [] :=
  ⟨.nil, fun _ h => absurd h List.not_mem_nil⟩

theorem Waiting.filter {pending : PendingRenames} (h : Waiting rootToken pending)
    (p : RenameKey × PendingNativeRename → Bool) : Waiting rootToken (pending.filter p) :=
  ⟨h.keyed.filter p, fun entry hentry => h.sides entry (List.mem_filter.1 hentry).1⟩

theorem Waiting.append {pending : PendingRenames} (h : Waiting rootToken pending) {key : RenameKey}
    (hkey : ∀ entry ∈ pending, entry.1 ≠ key) {side : PendingNativeRename}
    (hside : side.hint.isPartialMove = true) (hroot : side.hint.rootToken = rootToken) :
    Waiting rootToken (pending ++ [(key, side)]) := by
  refine ⟨h.keyed.append hkey, fun entry hentry => ?_⟩
  rcases List.mem_append.1 hentry with hentry | hentry
  · exact h.sides entry hentry
  · obtain rfl := List.mem_singleton.1 hentry
    exact ⟨hside, hroot⟩

/-- The side waits until this time. -/
def Waits (pending : PendingRenames) (hint : ChangeHint) (expiresAt : Nat) : Prop :=
  ∃ key, (key, { hint, expiresAt }) ∈ pending

variable {pending : PendingRenames} (output : List ChangeHint)

theorem resolveHint_waiting (h : Waiting rootToken pending) (hroot : hint.rootToken = rootToken) :
    Waiting rootToken (resolveHint now (pending, output) hint).1 := by
  unfold resolveHint
  dsimp only
  split
  · exact h
  split
  · exact h
  rename_i hhalf
  rw [not_not] at hhalf
  split
  · split
    · exact h.filter _
    · exact (h.filter _).append (fun entry hentry => (KeyedList.mem_remove.1 hentry).2) hhalf hroot
  · rename_i hnone
    split
    · exact .nil
    · exact h.append (fun entry hentry => KeyedList.ne_of_lookup_none hnone hentry) hhalf hroot

/-- A side that waited is covered or waits on. -/
theorem resolveHint_waits (hwaiting : Waiting rootToken pending) (hroot : hint.rootToken = rootToken)
    {side : ChangeHint} {expiresAt : Nat} (hpath : side.Names path)
    (h : Covered output rootToken path ∨ Waits pending side expiresAt) :
    Covered (resolveHint now (pending, output) hint).2 rootToken path
      ∨ Waits (resolveHint now (pending, output) hint).1 side expiresAt := by
  unfold resolveHint
  dsimp only
  split
  · exact h.imp_left Covered.append_left
  rename_i nativeKey _
  split
  · exact h.imp_left Covered.append_left
  rename_i hhalf
  rw [not_not] at hhalf
  split
  · rename_i previous hprevious
    obtain ⟨hhalf', hroot'⟩ := hwaiting.sides _ (KeyedList.mem_of_lookup hprevious)
    -- the side is the previous one of the key, or it stays
    have hstays : ∀ {key}, (key, { hint := side, expiresAt }) ∈ pending →
        side = previous.hint ∨ (key, { hint := side, expiresAt })
          ∈ KeyedList.remove (hint.rootToken, nativeKey) pending := by
      intro key hmem
      by_cases hkey : key = (hint.rootToken, nativeKey)
      · have hsame := hwaiting.keyed.eq_of_lookup hprevious hmem hkey
        exact .inl (congrArg (·.2.hint) hsame)
      · exact .inr (KeyedList.mem_remove.2 ⟨hmem, hkey⟩)
    split
    · rename_i hsides
      rcases h with h | ⟨key, hmem⟩
      · exact .inl h.append_left
      · rcases hstays hmem with rfl | hmem
        · exact .inl (covered_singleton (pairedHint_covers hhalf' hhalf hsides
            (hroot'.trans hroot.symm) (.inl ⟨hroot', .inl hpath⟩))).append_right
        · exact .inr ⟨key, hmem⟩
    · rcases h with h | ⟨key, hmem⟩
      · exact .inl h.append_left
      · rcases hstays hmem with rfl | hmem
        · exact .inl (rescanHint_covered hroot').append_right
        · exact .inr ⟨key, List.mem_append_left _ hmem⟩
  · split
    · exact .inl (rescanHint_covered hroot).append_right
    · rcases h with h | ⟨key, hmem⟩
      · exact .inl h
      · exact .inr ⟨key, List.mem_append_left _ hmem⟩

/-- What was output stays. -/
theorem resolveHint_output : output <+: (resolveHint now (pending, output) hint).2 := by
  unfold resolveHint
  dsimp only
  split
  · exact List.prefix_append _ _
  split
  · exact List.prefix_append _ _
  split
  · split <;> exact List.prefix_append _ _
  · split
    · exact List.prefix_append _ _
    · exact List.prefix_refl _

theorem Covered.of_prefix {first second : List ChangeHint} (hstart : first <+: second)
    (h : Covered first rootToken path) : Covered second rootToken path := by
  obtain ⟨rest, rfl⟩ := hstart
  exact h.append_left

/-- A hint comes as a side that has to wait. -/
def ChangeHint.isTrackedSide (hint : ChangeHint) : Bool :=
  hint.nativeKey.isSome && hint.isPartialMove

/-- A hint is covered, unless it comes as a side that has to wait. -/
theorem resolveHint_incoming (hwaiting : Waiting rootToken pending)
    (hroot : hint.rootToken = rootToken) (hpath : hint.Names path) :
    Covered (resolveHint now (pending, output) hint).2 rootToken path
      ∨ hint.isTrackedSide = true
        ∧ Waits (resolveHint now (pending, output) hint).1 hint (now + nativeRenameExpiration) := by
  have hcovers : hint.Covers rootToken path := ⟨hroot, .inl hpath⟩
  unfold resolveHint
  dsimp only
  split
  · exact .inl (covered_singleton (conservative_covers hcovers)).append_right
  rename_i nativeKey hnative
  split
  · exact .inl (covered_singleton hcovers).append_right
  rename_i hhalf
  rw [not_not] at hhalf
  have htracked : hint.isTrackedSide = true := by
    rw [ChangeHint.isTrackedSide, hnative, hhalf]
    rfl
  split
  · rename_i previous hprevious
    obtain ⟨hhalf', hroot'⟩ := hwaiting.sides _ (KeyedList.mem_of_lookup hprevious)
    split
    · rename_i hsides
      exact .inl (covered_singleton (pairedHint_covers hhalf' hhalf hsides
        (hroot'.trans hroot.symm) (.inr hcovers))).append_right
    · exact .inr ⟨htracked, _, List.mem_append_right _ (List.mem_singleton_self _)⟩
  · split
    · exact .inl (rescanHint_covered hroot).append_right
    · exact .inr ⟨htracked, _, List.mem_append_right _ (List.mem_singleton_self _)⟩

/-! ## One drain -/

variable {hints : List ChangeHint}

private theorem resolveHints_waiting (hroot : ∀ hint ∈ hints, hint.rootToken = rootToken)
    (state : PendingRenames × List ChangeHint) (h : Waiting rootToken state.1) :
    Waiting rootToken (hints.foldl (resolveHint now) state).1 := by
  induction hints generalizing state with
  | nil => exact h
  | cons hint hints ih =>
      rw [List.forall_mem_cons] at hroot
      exact ih hroot.2 _ (resolveHint_waiting now state.2 h hroot.1)

private theorem resolveHints_output (hints : List ChangeHint)
    (state : PendingRenames × List ChangeHint) :
    state.2 <+: (hints.foldl (resolveHint now) state).2 := by
  induction hints generalizing state with
  | nil => exact List.prefix_refl _
  | cons hint hints ih => exact (resolveHint_output now state.2).trans (ih _)

private theorem resolveHints_waits (hroot : ∀ hint ∈ hints, hint.rootToken = rootToken)
    (state : PendingRenames × List ChangeHint) (hwaiting : Waiting rootToken state.1)
    {side : ChangeHint} {expiresAt : Nat} (hpath : side.Names path)
    (h : Covered state.2 rootToken path ∨ Waits state.1 side expiresAt) :
    Covered (hints.foldl (resolveHint now) state).2 rootToken path
      ∨ Waits (hints.foldl (resolveHint now) state).1 side expiresAt := by
  induction hints generalizing state with
  | nil => exact h
  | cons hint hints ih =>
      rw [List.forall_mem_cons] at hroot
      exact ih hroot.2 _ (resolveHint_waiting now state.2 hwaiting hroot.1)
        (resolveHint_waits now state.2 hwaiting hroot.1 hpath h)

private theorem resolveHints_incoming (hroot : ∀ hint ∈ hints, hint.rootToken = rootToken)
    (state : PendingRenames × List ChangeHint) (hwaiting : Waiting rootToken state.1)
    (hhint : hint ∈ hints) (hpath : hint.Names path) :
    Covered (hints.foldl (resolveHint now) state).2 rootToken path
      ∨ hint.isTrackedSide = true
        ∧ Waits (hints.foldl (resolveHint now) state).1 hint (now + nativeRenameExpiration) := by
  induction hints generalizing state with
  | nil => exact absurd hhint List.not_mem_nil
  | cons first hints ih =>
      rw [List.forall_mem_cons] at hroot
      have hnext := resolveHint_waiting now state.2 hwaiting hroot.1
      rcases List.mem_cons.1 hhint with rfl | hhint
      · rcases resolveHint_incoming now state.2 hwaiting hroot.1 hpath with
          hcovered | ⟨htracked, hwaits⟩
        · exact .inl (hcovered.of_prefix (resolveHints_output now hints _))
        · exact (resolveHints_waits now hroot.2 _ hnext hpath (.inr hwaits)).imp_right
            fun hwaits => ⟨htracked, hwaits⟩
      · exact ih hroot.2 _ hnext hhint

/-- The hints of the drain are for one root. -/
def Drain.OfRoot (drain : Drain) (rootToken : String) : Prop :=
  ∀ hint ∈ drain.hints, hint.rootToken = rootToken

/-- The drain forgets no pending side without a rescan of the whole root: when a hint of it asks for
    a rescan, nothing is pending, or one asks for the whole root. -/
def Drain.ForgetsNone (drain : Drain) (pending : PendingRenames) : Prop :=
  drain.hints.any ChangeHint.asksRescan = true →
    pending = [] ∨ drain.hints.any ChangeHint.isRootWide = true

instance (drain : Drain) (pending : PendingRenames) : Decidable (drain.ForgetsNone pending) :=
  inferInstanceAs (Decidable (_ → _))

variable {drain : Drain}

theorem pendingAfter_waiting (hwaiting : Waiting rootToken pending) (hroot : drain.OfRoot rootToken) :
    Waiting rootToken (drain.pendingAfter pending) := by
  unfold Drain.pendingAfter resolveNativeRenameHints
  split
  · exact .nil
  · exact resolveHints_waiting _ hroot _ (hwaiting.filter _)

/-- A path some hint names is covered at once, unless the hint comes as a side that has to wait. -/
theorem emitted_incoming (hwaiting : Waiting rootToken pending) (hroot : drain.OfRoot rootToken)
    (hhint : hint ∈ drain.hints) (hpath : hint.Names path) :
    Covered (drain.emitted pending) rootToken path
      ∨ hint.isTrackedSide = true
        ∧ Waits (drain.pendingAfter pending) hint (drain.now + nativeRenameExpiration) := by
  have hresolved : Covered (resolveNativeRenameHints pending drain.hints drain.now).2 rootToken path
      ∨ hint.isTrackedSide = true
        ∧ Waits (drain.pendingAfter pending) hint (drain.now + nativeRenameExpiration) := by
    unfold Drain.pendingAfter resolveNativeRenameHints
    split
    · exact .inl ⟨hint, hhint, hroot hint hhint, .inl hpath⟩
    · exact resolveHints_incoming _ hroot _ (hwaiting.filter _) hhint hpath
  exact hresolved.imp_left coalesceChangeHints_covers

/-- A side that waits is covered or waits on, and then its time has not come. -/
theorem emitted_waits (hwaiting : Waiting rootToken pending) (hroot : drain.OfRoot rootToken)
    (hsound : drain.ForgetsNone pending) {expiresAt : Nat} (hpath : hint.Names path)
    (h : Waits pending hint expiresAt) :
    Covered (drain.emitted pending) rootToken path
      ∨ Waits (drain.pendingAfter pending) hint expiresAt ∧ drain.now < expiresAt := by
  obtain ⟨key, hmem⟩ := h
  have hroot' : hint.rootToken = rootToken := (hwaiting.sides _ hmem).2
  have hresolved : Covered (resolveNativeRenameHints pending drain.hints drain.now).2 rootToken path
      ∨ Waits (drain.pendingAfter pending) hint expiresAt ∧ drain.now < expiresAt := by
    unfold Drain.pendingAfter resolveNativeRenameHints
    split
    · rename_i hrescan
      rcases hsound hrescan with rfl | hwide
      · exact absurd hmem List.not_mem_nil
      · obtain ⟨wide, hwide, hasks⟩ := List.any_eq_true.1 hwide
        exact .inl ⟨wide, hwide, hroot wide hwide, .inr hasks⟩
    · by_cases hexpired : expiresAt ≤ drain.now
      · -- an expired side becomes a rescan of the root
        have hrescan : Covered ((pending.filter fun entry => entry.2.expiresAt ≤ drain.now).map
            fun entry => rescanHint entry.2.hint.rootToken) rootToken path :=
          ⟨_, List.mem_map_of_mem (List.mem_filter.2 ⟨hmem, decide_eq_true hexpired⟩),
            hroot' ▸ rescanHint_covers⟩
        exact .inl (hrescan.of_prefix (resolveHints_output _ _ (_, _)))
      · exact (resolveHints_waits _ hroot _ (hwaiting.filter _) hpath
          (.inr ⟨key, List.mem_filter.2 ⟨hmem, decide_eq_true hexpired⟩⟩)).imp_right
            fun hwaits => ⟨hwaits, Nat.lt_of_not_le hexpired⟩
  exact hresolved.imp_left coalesceChangeHints_covers

/-! ## Runs -/

/-- No drain of the run forgets a pending side. -/
def NoneForgotten (pending : PendingRenames) : List Drain → Prop
  | [] => True
  | drain :: drains => drain.ForgetsNone pending ∧ NoneForgotten (drain.pendingAfter pending) drains

instance (pending : PendingRenames) (drains : List Drain) :
    Decidable (NoneForgotten pending drains) := by
  induction drains generalizing pending with
  | nil => exact .isTrue trivial
  | cons drain drains ih => exact instDecidableAnd

theorem noneForgotten_append {before after : List Drain} :
    NoneForgotten pending (before ++ after)
      ↔ NoneForgotten pending before ∧ NoneForgotten (pendingAfter pending before) after := by
  induction before generalizing pending with
  | nil => exact ⟨fun h => ⟨trivial, h⟩, fun h => h.2⟩
  | cons drain before ih =>
      rw [List.cons_append, NoneForgotten, NoneForgotten, ih, and_assoc]
      rfl

theorem run_waiting {drains : List Drain} (hroot : ∀ drain ∈ drains, drain.OfRoot rootToken)
    (hwaiting : Waiting rootToken pending) : Waiting rootToken (pendingAfter pending drains) := by
  induction drains generalizing pending with
  | nil => exact hwaiting
  | cons drain drains ih =>
      rw [List.forall_mem_cons] at hroot
      exact ih hroot.2 (pendingAfter_waiting hwaiting hroot.1)

/-- A side that waits is covered by the first drain at which its time has come. -/
theorem run_waits {drains : List Drain} (hroot : ∀ drain ∈ drains, drain.OfRoot rootToken)
    (hsound : NoneForgotten pending drains) (hwaiting : Waiting rootToken pending)
    {expiresAt : Nat} (hpath : hint.Names path) (h : Waits pending hint expiresAt)
    {last : Drain} (hlast : last ∈ drains) (hexpired : expiresAt ≤ last.now) :
    ∃ emitted ∈ emissions pending drains, Covered emitted rootToken path := by
  induction drains generalizing pending with
  | nil => exact absurd hlast List.not_mem_nil
  | cons drain drains ih =>
      rw [List.forall_mem_cons] at hroot
      rcases emitted_waits hwaiting hroot.1 hsound.1 hpath h with hcovered | ⟨hwaits, hearly⟩
      · exact ⟨_, List.mem_cons_self .., hcovered⟩
      · rcases List.mem_cons.1 hlast with rfl | hlast
        · exact absurd hexpired (Nat.not_le.2 hearly)
        · obtain ⟨emitted, hmem, hcovered⟩ :=
            ih hroot.2 hsound.2 (pendingAfter_waiting hwaiting hroot.1) hwaits hlast
          exact ⟨emitted, List.mem_cons_of_mem _ hmem, hcovered⟩

/-- **The watcher loses no change** in a run in which no drain forgets a pending side: a path some
    hint names is covered at once, or, when the hint comes as a tracked side of a rename, by the
    first drain at which the side has expired. -/
theorem no_change_lost {before after : List Drain} {drain : Drain}
    (hroot : ∀ d ∈ before ++ drain :: after, d.OfRoot rootToken)
    (hsound : NoneForgotten [] (before ++ drain :: after))
    (hhint : hint ∈ drain.hints) (hpath : hint.Names path) :
    (hint.isTrackedSide = false →
        Covered (drain.emitted (pendingAfter [] before)) rootToken path)
      ∧ ((∃ last ∈ drain :: after, drain.now + nativeRenameExpiration ≤ last.now) →
        ∃ emitted ∈ emissions (pendingAfter [] before) (drain :: after),
          Covered emitted rootToken path) := by
  have hbefore : ∀ d ∈ before, d.OfRoot rootToken := fun d hd => hroot d (List.mem_append_left _ hd)
  have hdrain : drain.OfRoot rootToken :=
    hroot drain (List.mem_append_right _ (List.mem_cons_self ..))
  have hafter : ∀ d ∈ after, d.OfRoot rootToken := fun d hd =>
    hroot d (List.mem_append_right _ (List.mem_cons_of_mem _ hd))
  have hwaiting := run_waiting hbefore Waiting.nil
  obtain ⟨-, -, hsound⟩ := noneForgotten_append.1 hsound
  rcases emitted_incoming hwaiting hdrain hhint hpath with hcovered | ⟨htracked, hwaits⟩
  · exact ⟨fun _ => hcovered, fun _ => ⟨_, List.mem_cons_self .., hcovered⟩⟩
  · refine ⟨fun huntracked => ?_, ?_⟩
    · rw [htracked] at huntracked
      cases huntracked
    rintro ⟨last, hlast, hexpired⟩
    rcases List.mem_cons.1 hlast with rfl | hlast
    · exact absurd hexpired (by rw [nativeRenameExpiration]; omega)
    · obtain ⟨emitted, hmem, hcovered⟩ := run_waits hafter hsound
        (pendingAfter_waiting hwaiting hdrain) hpath hwaits hlast hexpired
      exact ⟨emitted, List.mem_cons_of_mem _ hmem, hcovered⟩

/-! ## A side that is forgotten -/

private def watched : WatchContext where
  rootToken := "root"
  isRoot := fun _ => false
  underRoot := fun _ => true
  relative := some
  scope := fun _ => none

/-- The first side of a rename, tracked. -/
private def movedAway : Received where
  overflowed := false
  events := [some {
    kind := .modify (.name .from_)
    paths := [["before.txt"]]
    tracker := some 77
    needRescan := false }]
  disconnected := false
  now := 0

/-- Something was renamed, and it is not known how. -/
private def renamedSomehow : Received where
  overflowed := false
  events := [some {
    kind := .modify (.name .any)
    paths := [["other.txt"]]
    tracker := none
    needRescan := false }]
  disconnected := false
  now := 100

private def nothing : Received where
  overflowed := false
  events := []
  disconnected := false
  now := 1000

/-- A rescan of one path makes the watcher forget the first side of a rename of another: no hint
    ever tells of that file. -/
theorem change_lost :
    (∃ hint ∈ (watched.drain movedAway).hints, hint.Names ["before.txt"])
      ∧ movedAway.now + nativeRenameExpiration ≤ nothing.now
      ∧ ∀ emitted ∈ emissions [] ([movedAway, renamedSomehow, nothing].map watched.drain),
        ¬Covered emitted "root" ["before.txt"] := by
  decide +kernel

private def awayHint : ChangeHint where
  rootToken := "root"
  nativeKey := some (leBytes 77)
  pathAfter := none
  pathBefore := some ["before.txt"]
  kind := .moved
  scope := .unknown

/-- Without the rescan in between the rename is told of once it has expired. -/
theorem no_change_lost_quiet :
    ∃ emitted ∈ emissions [] [watched.drain movedAway, watched.drain nothing],
      Covered emitted "root" ["before.txt"] := by
  have hroot : ∀ d ∈ [] ++ watched.drain movedAway :: [watched.drain nothing], d.OfRoot "root" := by
    intro d hd
    rcases List.mem_pair.1 hd with rfl | rfl <;> exact drain_rootToken _
  exact (no_change_lost hroot (by decide +kernel)
    (show awayHint ∈ (watched.drain movedAway).hints by decide +kernel)
    (by decide +kernel)).2 (by decide +kernel)

end Zemo.Watcher
