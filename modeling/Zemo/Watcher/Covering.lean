import Zemo.Watcher.Hints

set_option autoImplicit false

/-! # What the hints cover

A hint covers the paths it names, and every path of its root when it asks to look at the whole root
again. Coalescing hints covers what they covered (`coalesceChangeHints_covers`). -/

namespace Zemo.Watcher

namespace ChangeHint

def Names (hint : ChangeHint) (path : RelPath) : Prop :=
  hint.pathAfter = some path ∨ hint.pathBefore = some path

/-- The hint asks to look at the whole root again, after an overflow or not. -/
def isRootWide (hint : ChangeHint) : Bool := hint.asksRescan && hint.isPathless

def Covers (hint : ChangeHint) (rootToken : String) (path : RelPath) : Prop :=
  hint.rootToken = rootToken ∧ (hint.Names path ∨ hint.isRootWide = true)

instance (hint : ChangeHint) (path : RelPath) : Decidable (hint.Names path) :=
  inferInstanceAs (Decidable (_ ∨ _))

instance (hint : ChangeHint) (rootToken : String) (path : RelPath) :
    Decidable (hint.Covers rootToken path) := inferInstanceAs (Decidable (_ ∧ _))

end ChangeHint

theorem ChangeHint.isRootWide_iff {hint : ChangeHint} :
    hint.isRootWide = true
      ↔ (hint.kind = .overflow ∨ hint.kind = .rescanRequired) ∧ hint.isPathless = true := by
  simp only [isRootWide, asksRescan, Bool.and_eq_true, Bool.or_eq_true, decide_eq_true_eq]

theorem ChangeHint.isRootRescan_iff {hint : ChangeHint} :
    hint.isRootRescan = true ↔ hint.kind = .rescanRequired ∧ hint.isPathless = true := by
  simp only [isRootRescan, Bool.and_eq_true, decide_eq_true_eq]

/-- One of the hints covers the path. -/
def Covered (hints : List ChangeHint) (rootToken : String) (path : RelPath) : Prop :=
  ∃ hint ∈ hints, hint.Covers rootToken path

instance (hints : List ChangeHint) (rootToken : String) (path : RelPath) :
    Decidable (Covered hints rootToken path) := List.decidableBEx _ _

variable {hint previous : ChangeHint} {hints more : List ChangeHint} {rootToken : String}
  {path : RelPath}

theorem Covered.append_left (h : Covered hints rootToken path) :
    Covered (hints ++ more) rootToken path := by
  obtain ⟨hint, hmem, hcovers⟩ := h
  exact ⟨hint, List.mem_append_left _ hmem, hcovers⟩

theorem Covered.append_right (h : Covered more rootToken path) :
    Covered (hints ++ more) rootToken path := by
  obtain ⟨hint, hmem, hcovers⟩ := h
  exact ⟨hint, List.mem_append_right _ hmem, hcovers⟩

theorem covered_singleton (h : hint.Covers rootToken path) : Covered [hint] rootToken path :=
  ⟨hint, List.mem_singleton_self _, h⟩

/-- A rescan of the root covers all its paths. -/
theorem rescanHint_covers : (rescanHint rootToken).Covers rootToken path := ⟨rfl, .inr rfl⟩

theorem rescanHint_covered {other : String} (h : other = rootToken) :
    Covered [rescanHint other] rootToken path := covered_singleton (h ▸ rescanHint_covers)

/-- A side of a rename covers the paths it names and no others. -/
theorem names_of_half (hhalf : hint.isPartialMove = true)
    (h : hint.Covers rootToken path) : hint.Names path := by
  refine h.2.resolve_right fun hwide => ?_
  simp only [ChangeHint.isPartialMove, Bool.and_eq_true, decide_eq_true_eq] at hhalf
  rcases (ChangeHint.isRootWide_iff.1 hwide).1 with hkind | hkind <;>
    rw [hhalf.1] at hkind <;> exact nomatch hkind

theorem conservative_covers (h : hint.Covers rootToken path) :
    (conservativeOneSidedMove hint).Covers rootToken path := by
  unfold conservativeOneSidedMove
  split
  · rename_i hhalf
    exact ⟨h.1, .inl (show hint.Names path from names_of_half hhalf h)⟩
  · exact h

/-- Two sides of one rename. -/
def Complementary (previous hint : ChangeHint) : Prop :=
  previous.pathAfter.isSome ≠ hint.pathAfter.isSome

/-- The sides of a rename, taken together, name what either one names. -/
theorem pairedHint_covers (hprevious : previous.isPartialMove = true)
    (hhint : hint.isPartialMove = true) (hsides : Complementary previous hint)
    (hroot : previous.rootToken = hint.rootToken)
    (h : previous.Covers rootToken path ∨ hint.Covers rootToken path) :
    (pairedHint previous hint).Covers rootToken path := by
  have hnames : previous.Names path ∨ hint.Names path :=
    h.imp (names_of_half hprevious) (names_of_half hhint)
  refine ⟨h.elim (fun h => hroot ▸ h.1) (·.1), .inl ?_⟩
  simp only [ChangeHint.isPartialMove, Bool.and_eq_true, bne_iff_ne] at hprevious hhint
  obtain ⟨-, hprevious⟩ := hprevious
  obtain ⟨-, hhint⟩ := hhint
  unfold Complementary at hsides
  simp only [ChangeHint.Names, pairedHint] at hnames ⊢
  cases ha : hint.pathAfter <;> cases hb : hint.pathBefore <;>
    cases hpa : previous.pathAfter <;> cases hpb : previous.pathBefore <;>
    simp_all [or_comm]

/-! ## Tracked renames -/

/-- What the pending sides of a coalescing are. -/
structure Tracked (pending : List (RenameKey × ChangeHint)) : Prop where
  keyed : KeyedList.Keyed pending
  sides : ∀ entry ∈ pending,
    entry.2.isPartialMove = true ∧ entry.2.rootToken = entry.1.1

/-- A path is covered by what was output or by a pending side. -/
def TrackedCovered (state : List ChangeHint × List (RenameKey × ChangeHint)) (rootToken : String)
    (path : RelPath) : Prop :=
  Covered state.1 rootToken path ∨ ∃ entry ∈ state.2, entry.2.Covers rootToken path

variable {state : List ChangeHint × List (RenameKey × ChangeHint)}

theorem trackRename_tracked (h : Tracked state.2) : Tracked (trackRename state hint).2 := by
  obtain ⟨output, pending⟩ := state
  unfold trackRename
  dsimp only
  split
  · exact h
  · split
    · exact h
    · rename_i nativeKey _ hhalf
      rw [not_not] at hhalf
      have hside : ∀ entry : RenameKey × ChangeHint, entry ∈ [((hint.rootToken, nativeKey), hint)] →
          entry.2.isPartialMove = true ∧ entry.2.rootToken = entry.1.1 := by
        rintro entry hentry
        obtain rfl := List.mem_singleton.1 hentry
        exact ⟨hhalf, rfl⟩
      have hremoved : Tracked (KeyedList.remove (hint.rootToken, nativeKey) pending) :=
        ⟨h.keyed.remove, fun entry hentry => h.sides entry (KeyedList.mem_remove.1 hentry).1⟩
      split
      · split
        · exact hremoved
        · exact ⟨hremoved.keyed.append fun entry hentry => (KeyedList.mem_remove.1 hentry).2,
            fun entry hentry => (List.mem_append.1 hentry).elim (hremoved.sides entry)
              (hside entry)⟩
      · rename_i hnone
        exact ⟨h.keyed.append fun entry hentry => KeyedList.ne_of_lookup_none hnone hentry,
          fun entry hentry => (List.mem_append.1 hentry).elim (h.sides entry) (hside entry)⟩

/-- What was covered stays covered, and the hint is covered too. -/
theorem trackRename_covered (htracked : Tracked state.2)
    (h : TrackedCovered state rootToken path ∨ hint.Covers rootToken path) :
    TrackedCovered (trackRename state hint) rootToken path := by
  obtain ⟨output, pending⟩ := state
  unfold trackRename
  dsimp only
  split
  · rcases h with (h | h) | h
    · exact .inl h.append_left
    · exact .inr h
    · exact .inl (covered_singleton (conservative_covers h)).append_right
  rename_i nativeKey _
  split
  · rcases h with (h | h) | h
    · exact .inl h.append_left
    · exact .inr h
    · exact .inl (covered_singleton h).append_right
  rename_i hhalf
  rw [not_not] at hhalf
  set key : RenameKey := (hint.rootToken, nativeKey) with hkey
  split
  · rename_i previous hprevious
    obtain ⟨hhalf', hroot⟩ := htracked.sides _ (KeyedList.mem_of_lookup hprevious)
    -- a pending side is this one, or it stays
    have hstays : ∀ entry ∈ pending, entry.2.Covers rootToken path →
        previous.Covers rootToken path ∨ entry ∈ KeyedList.remove key pending := by
      intro entry hentry hcovers
      by_cases hsame : entry.1 = key
      · rw [htracked.keyed.eq_of_lookup hprevious hentry hsame] at hcovers
        exact .inl hcovers
      · exact .inr (KeyedList.mem_remove.2 ⟨hentry, hsame⟩)
    split
    · rename_i hsides
      have hpaired : previous.Covers rootToken path ∨ hint.Covers rootToken path →
          (pairedHint previous hint).Covers rootToken path :=
        pairedHint_covers hhalf' hhalf hsides hroot
      rcases h with (h | ⟨entry, hentry, hcovers⟩) | h
      · exact .inl h.append_left
      · rcases hstays entry hentry hcovers with h | hmem
        · exact .inl (covered_singleton (hpaired (.inl h))).append_right
        · exact .inr ⟨entry, hmem, hcovers⟩
      · exact .inl (covered_singleton (hpaired (.inr h))).append_right
    · rcases h with (h | ⟨entry, hentry, hcovers⟩) | h
      · exact .inl h.append_left
      · rcases hstays entry hentry hcovers with h | hmem
        · exact .inl (covered_singleton (conservative_covers h)).append_right
        · exact .inr ⟨entry, List.mem_append_left _ hmem, hcovers⟩
      · exact .inr ⟨_, List.mem_append_right _ (List.mem_singleton_self _), h⟩
  · rcases h with (h | ⟨entry, hentry, hcovers⟩) | h
    · exact .inl h
    · exact .inr ⟨entry, List.mem_append_left _ hentry, hcovers⟩
    · exact .inr ⟨_, List.mem_append_right _ (List.mem_singleton_self _), h⟩

private theorem trackRenames_covered
    (state : List ChangeHint × List (RenameKey × ChangeHint)) (htracked : Tracked state.2)
    (h : TrackedCovered state rootToken path ∨ Covered hints rootToken path) :
    TrackedCovered (hints.foldl trackRename state) rootToken path := by
  induction hints generalizing state with
  | nil =>
      rcases h with h | ⟨_, hmem, -⟩
      · exact h
      · exact absurd hmem List.not_mem_nil
  | cons hint hints ih =>
      refine ih _ (trackRename_tracked htracked) ?_
      rcases h with h | ⟨first, hmem, hcovers⟩
      · exact .inl (trackRename_covered htracked (.inl h))
      · rcases List.mem_cons.1 hmem with rfl | hmem
        · exact .inl (trackRename_covered htracked (.inr hcovers))
        · exact .inr ⟨first, hmem, hcovers⟩

theorem coalesceTrackedRenames_covers (h : Covered hints rootToken path) :
    Covered (coalesceTrackedRenames hints) rootToken path := by
  have hstart : Tracked [] := ⟨.nil, fun _ h => absurd h List.not_mem_nil⟩
  rcases trackRenames_covered ([], []) hstart (.inr h) with houtput | ⟨entry, hentry, hcovers⟩
  · exact houtput.append_left
  · exact Covered.append_right ⟨_, List.mem_map_of_mem hentry, conservative_covers hcovers⟩

/-! ## Coalescing -/

abbrev HintMap := List (CoalesceKey × ChangeHint)

/-- The hints stand under their own keys, and a root to look at again has its rescan. -/
structure Coalesced (output : HintMap) (rescans : List String) : Prop where
  keys : ∀ entry ∈ output, entry.1 = entry.2.coalesceKey
  rescans : ∀ rootToken ∈ rescans, ∃ entry ∈ output,
    entry.2.isRootRescan = true ∧ entry.2.rootToken = rootToken

theorem isRootWide_of_isRootRescan (h : hint.isRootRescan = true) : hint.isRootWide = true := by
  obtain ⟨hkind, hpaths⟩ := ChangeHint.isRootRescan_iff.1 h
  exact ChangeHint.isRootWide_iff.2 ⟨.inr hkind, hpaths⟩

/-- A hint that took in another one of its key. -/
def taken (existing hint : ChangeHint) : ChangeHint :=
  { existing with
    kind := mergeEventKinds existing.kind hint.kind
    scope := mergeChangeScopes existing.scope hint.scope }

theorem mergeEventKinds_left {previous next : LocalEventKind} :
    (previous = .rescanRequired → mergeEventKinds previous next = .rescanRequired)
      ∧ (previous = .overflow → mergeEventKinds previous next = .overflow
        ∨ mergeEventKinds previous next = .rescanRequired) := by
  cases previous <;> cases next <;> decide

theorem mergeEventKinds_right {previous next : LocalEventKind} :
    (next = .rescanRequired → mergeEventKinds previous next = .rescanRequired)
      ∧ (next = .overflow → mergeEventKinds previous next = .overflow
        ∨ mergeEventKinds previous next = .rescanRequired) := by
  cases previous <;> cases next <;> decide

/-- It covers what either one covers. -/
theorem taken_covers {existing : ChangeHint} (hkey : existing.coalesceKey = hint.coalesceKey)
    (h : existing.Covers rootToken path ∨ hint.Covers rootToken path) :
    (taken existing hint).Covers rootToken path := by
  simp only [ChangeHint.coalesceKey, CoalesceKey.mk.injEq] at hkey
  obtain ⟨hroot, -, hafter, hbefore⟩ := hkey
  have hwide : existing.isRootWide = true ∨ hint.isRootWide = true →
      (taken existing hint).isRootWide = true := by
    simp only [ChangeHint.isRootWide_iff, ChangeHint.isPathless, taken, ← hafter, ← hbefore]
    rintro (⟨hkind | hkind, hpaths⟩ | ⟨hkind | hkind, hpaths⟩)
    · exact ⟨mergeEventKinds_left.2 hkind, hpaths⟩
    · exact ⟨.inr (mergeEventKinds_left.1 hkind), hpaths⟩
    · exact ⟨mergeEventKinds_right.2 hkind, hpaths⟩
    · exact ⟨.inr (mergeEventKinds_right.1 hkind), hpaths⟩
  rcases h with ⟨hr, hn⟩ | ⟨hr, hn⟩
  · exact ⟨hr, hn.imp_right fun h => hwide (.inl h)⟩
  · refine ⟨hroot.trans hr, hn.imp (fun h => ?_) fun h => hwide (.inr h)⟩
    simpa only [ChangeHint.Names, taken, hafter, hbefore] using h

theorem taken_isRootRescan {existing : ChangeHint} (h : existing.isRootRescan = true) :
    (taken existing hint).isRootRescan = true := by
  obtain ⟨hkind, hpaths⟩ := ChangeHint.isRootRescan_iff.1 h
  exact ChangeHint.isRootRescan_iff.2 ⟨mergeEventKinds_left.1 hkind, hpaths⟩

variable {output : HintMap} {rescans : List String}

/-- What becomes of an entry when a hint is merged. -/
theorem mem_mergeHint_of_mem (hint : ChangeHint) {entry : CoalesceKey × ChangeHint}
    (h : entry ∈ output) :
    entry ∈ mergeHint output hint
      ∨ entry.1 = hint.coalesceKey ∧ (entry.1, taken entry.2 hint) ∈ mergeHint output hint := by
  unfold mergeHint
  split
  · exact .inl (List.mem_append_left _ h)
  · by_cases hkey : entry.1 = hint.coalesceKey
    · exact .inr ⟨hkey, List.mem_map.2 ⟨entry, h, if_pos hkey⟩⟩
    · exact .inl (List.mem_map.2 ⟨entry, h, if_neg hkey⟩)

/-- What becomes of a hint when it is merged. -/
theorem exists_mergeHint (hint : ChangeHint) (output : HintMap) :
    (hint.coalesceKey, hint) ∈ mergeHint output hint
      ∨ ∃ entry ∈ output, entry.1 = hint.coalesceKey
        ∧ (entry.1, taken entry.2 hint) ∈ mergeHint output hint := by
  unfold mergeHint
  split
  · exact .inl (List.mem_append_right _ (List.mem_singleton_self _))
  · rename_i existing hexisting
    have hmem := KeyedList.mem_of_lookup hexisting
    exact .inr ⟨_, hmem, rfl, List.mem_map.2 ⟨_, hmem, if_pos rfl⟩⟩

theorem mergeHint_keys (h : ∀ entry ∈ output, entry.1 = entry.2.coalesceKey) :
    ∀ entry ∈ mergeHint output hint, entry.1 = entry.2.coalesceKey := by
  intro entry hentry
  unfold mergeHint at hentry
  split at hentry
  · rcases List.mem_append.1 hentry with hentry | hentry
    · exact h entry hentry
    · exact List.mem_singleton.1 hentry ▸ rfl
  · obtain ⟨old, hold, rfl⟩ := List.mem_map.1 hentry
    split
    · exact h old hold
    · exact h old hold

theorem mergeHint_covered (hkeys : ∀ entry ∈ output, entry.1 = entry.2.coalesceKey)
    (h : Covered (output.map Prod.snd) rootToken path ∨ hint.Covers rootToken path) :
    Covered ((mergeHint output hint).map Prod.snd) rootToken path := by
  rcases h with ⟨_, hmem, hcovers⟩ | hcovers
  · obtain ⟨entry, hentry, rfl⟩ := List.mem_map.1 hmem
    rcases mem_mergeHint_of_mem hint hentry with hkept | ⟨hkey, htaken⟩
    · exact ⟨_, List.mem_map_of_mem hkept, hcovers⟩
    · exact ⟨_, List.mem_map_of_mem htaken,
        taken_covers ((hkeys entry hentry).symm.trans hkey) (.inl hcovers)⟩
  · rcases exists_mergeHint hint output with hmem | ⟨entry, hentry, hkey, htaken⟩
    · exact ⟨_, List.mem_map_of_mem hmem, hcovers⟩
    · exact ⟨_, List.mem_map_of_mem htaken,
        taken_covers ((hkeys entry hentry).symm.trans hkey) (.inr hcovers)⟩

private theorem mergeHint_rescan {entry : CoalesceKey × ChangeHint} (hentry : entry ∈ output)
    (h : entry.2.isRootRescan = true) :
    ∃ entry' ∈ mergeHint output hint,
      entry'.2.isRootRescan = true ∧ entry'.2.rootToken = entry.2.rootToken := by
  rcases mem_mergeHint_of_mem hint hentry with hkept | ⟨-, htaken⟩
  · exact ⟨entry, hkept, h, rfl⟩
  · exact ⟨_, htaken, taken_isRootRescan h, rfl⟩

/-- A rescan of a root takes the place of the other hints for the root. -/
private theorem mergeHint_others (hint : ChangeHint) (output : HintMap) :
    (hint.coalesceKey, hint)
      ∈ mergeHint (output.filter fun entry => entry.1.rootToken ≠ hint.rootToken) hint := by
  refine (exists_mergeHint hint _).resolve_right ?_
  rintro ⟨entry, hentry, hkey, -⟩
  have hother := (List.mem_filter.1 hentry).2
  rw [decide_eq_true_eq, hkey] at hother
  exact hother rfl

theorem coalesceHint_coalesced (h : Coalesced output rescans) :
    Coalesced (coalesceHint (output, rescans) hint).1 (coalesceHint (output, rescans) hint).2 := by
  have hfiltered : ∀ entry ∈ output.filter fun entry => entry.1.rootToken ≠ hint.rootToken,
      entry.1 = entry.2.coalesceKey := fun entry hentry => h.keys entry (List.mem_filter.1 hentry).1
  unfold coalesceHint
  dsimp only
  split
  · rename_i hrescan
    refine ⟨mergeHint_keys hfiltered, fun rootToken hmem => ?_⟩
    by_cases hroot : rootToken = hint.rootToken
    · exact ⟨_, mergeHint_others hint output, hrescan, hroot.symm⟩
    · obtain ⟨entry, hentry, hrescan', rfl⟩ :=
        h.rescans rootToken ((List.mem_cons.1 hmem).resolve_left hroot)
      refine mergeHint_rescan (List.mem_filter.2 ⟨hentry, ?_⟩) hrescan'
      rw [decide_eq_true_eq, h.keys entry hentry]
      exact hroot
  · split
    · exact h
    · refine ⟨mergeHint_keys h.keys, fun rootToken hmem => ?_⟩
      obtain ⟨entry, hentry, hrescan, rfl⟩ := h.rescans rootToken hmem
      exact mergeHint_rescan hentry hrescan

theorem coalesceHint_covered (hcoalesced : Coalesced output rescans)
    (h : Covered (output.map Prod.snd) rootToken path ∨ hint.Covers rootToken path) :
    Covered ((coalesceHint (output, rescans) hint).1.map Prod.snd) rootToken path := by
  unfold coalesceHint
  dsimp only
  split
  · rename_i hrescan
    have hmerged := mergeHint_others hint output
    by_cases hroot : hint.rootToken = rootToken
    · exact ⟨hint, List.mem_map.2 ⟨_, hmerged, rfl⟩, hroot,
        .inr (isRootWide_of_isRootRescan hrescan)⟩
    · rcases h with ⟨_, hmem, hcovers⟩ | h
      · obtain ⟨entry, hentry, rfl⟩ := List.mem_map.1 hmem
        have hother : entry ∈ output.filter fun entry => entry.1.rootToken ≠ hint.rootToken := by
          rw [List.mem_filter, decide_eq_true_eq, hcoalesced.keys entry hentry]
          exact ⟨hentry, fun heq => hroot (heq.symm.trans hcovers.1)⟩
        refine mergeHint_covered (fun entry hentry => hcoalesced.keys entry
          (List.mem_filter.1 hentry).1) (.inl ⟨_, List.mem_map_of_mem hother, hcovers⟩)
      · exact absurd h.1 hroot
  · split
    · rename_i hskipped
      rcases h with h | h
      · exact h
      · obtain ⟨entry, hentry, hrescan, hroot⟩ := hcoalesced.rescans _ hskipped
        exact ⟨_, List.mem_map_of_mem hentry, hroot.trans h.1,
          .inr (isRootWide_of_isRootRescan hrescan)⟩
    · exact mergeHint_covered hcoalesced.keys h

private theorem coalesceHints_covered (output : HintMap) (rescans : List String)
    (hcoalesced : Coalesced output rescans)
    (h : Covered (output.map Prod.snd) rootToken path ∨ Covered hints rootToken path) :
    Covered ((hints.foldl coalesceHint (output, rescans)).1.map Prod.snd) rootToken path := by
  induction hints generalizing output rescans with
  | nil =>
      rcases h with h | ⟨_, hmem, -⟩
      · exact h
      · exact absurd hmem List.not_mem_nil
  | cons hint hints ih =>
      refine ih _ _ (coalesceHint_coalesced hcoalesced) ?_
      rcases h with h | ⟨first, hmem, hcovers⟩
      · exact .inl (coalesceHint_covered hcoalesced (.inl h))
      · rcases List.mem_cons.1 hmem with rfl | hmem
        · exact .inl (coalesceHint_covered hcoalesced (.inr hcovers))
        · exact .inr ⟨first, hmem, hcovers⟩

/-- **Coalescing loses no path**: what the hints cover, the coalesced ones do. -/
theorem coalesceChangeHints_covers (h : Covered hints rootToken path) :
    Covered (coalesceChangeHints hints) rootToken path :=
  coalesceHints_covered [] []
    ⟨fun _ h => absurd h List.not_mem_nil, fun _ h => absurd h List.not_mem_nil⟩
    (.inr (coalesceTrackedRenames_covers h))

end Zemo.Watcher
