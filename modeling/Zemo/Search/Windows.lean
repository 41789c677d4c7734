import Zemo.Search.Segments

set_option autoImplicit false

/-! # The windows of a segment

What each loop of `tokenize_windows` can do to the end of a window, and from it what all windows of
a segment have in common: where they are cut, that each starts after the one before and not after
its end, and how long they get. -/

namespace Zemo.Search.Chunking

open Texts

variable {policy : ChunkingPolicy} {count : Text → Nat} {text : Text} {start stop : Nat}

/-! ## The end of a window -/

theorem charsPerToken_pos (policy : ChunkingPolicy) : 1 ≤ policy.charsPerToken :=
  Nat.le_max_right _ _

theorem saturatingMul_le (a b : Nat) : saturatingMul a b ≤ a * b := Nat.min_le_left _ _

theorem targetChars_pos (htarget : 1 ≤ policy.targetTokens) : 1 ≤ policy.targetChars :=
  Nat.le_min.2 ⟨Nat.mul_pos htarget (charsPerToken_pos policy), by norm_num⟩

theorem rposition_lt {p : Char → Bool} {rel : Nat} (h : rposition p text = some rel) :
    rel < text.length := by
  obtain ⟨index, hindex, rfl⟩ := Option.map_eq_some_iff.1 h
  have := (List.findIdx?_eq_some_iff_findIdx_eq.1 hindex).1
  rw [List.length_reverse] at this
  omega

theorem slice_length_le (text : Text) (start stop : Nat) :
    (slice text start stop).length ≤ stop - start := by
  rw [slice, List.length_take]
  omega

section Ends

variable (policy count)

/-- A boundary lies in the second half of the target. -/
theorem boundaryEnd_spec (hstart : start < text.length) :
    start ≤ boundaryEnd policy text start ∧ boundaryEnd policy text start ≤ text.length
      ∧ boundaryEnd policy text start ≤ start + policy.targetChars
      ∧ (1 ≤ policy.targetChars → start < boundaryEnd policy text start) := by
  unfold boundaryEnd
  dsimp only
  have hrel : ∀ {p : Char → Bool} {rel : Nat}, rposition p (slice text
      (start + policy.targetChars / 2) (min (start + policy.targetChars) text.length)) = some rel →
      start + policy.targetChars / 2 + rel < min (start + policy.targetChars) text.length := by
    intro p rel h
    have hlt := rposition_lt h
    have hle := slice_length_le text (start + policy.targetChars / 2)
      (min (start + policy.targetChars) text.length)
    omega
  split
  · split
    · next rel hline =>
      have := hrel hline
      omega
    · split
      · next rel hspace =>
        have := hrel hspace
        omega
      · omega
  · omega

/-- What the first loop leaves is no longer than before. -/
theorem shrinkEnd_spec (text : Text) (start stop : Nat) :
    shrinkEnd policy count text start stop ≤ stop
      ∧ (start ≤ stop → start ≤ shrinkEnd policy count text start stop)
      ∧ (start < stop → start < shrinkEnd policy count text start stop)
      ∧ (count (slice text start (shrinkEnd policy count text start stop)) ≤ policy.maxTokens
        ∨ shrinkEnd policy count text start stop ≤ start + 16) := by
  induction stop using shrinkEnd.induct policy count text start with
  | case1 stop h ih =>
    rw [shrinkEnd, if_pos h]
    obtain ⟨hle, hge, hgt, hfits⟩ := ih
    have := h.2
    exact ⟨by omega, fun _ => hge (by omega), fun _ => hgt (by omega), hfits⟩
  | case2 stop h =>
    rw [shrinkEnd, if_neg h]
    refine ⟨le_rfl, id, id, ?_⟩
    by_cases htokens : policy.maxTokens < count (slice text start stop)
    · exact .inr (Nat.le_of_not_lt fun hlt => h ⟨htokens, hlt⟩)
    · exact .inl (Nat.le_of_not_lt htokens)

/-- The second loop stays in the text, after the start. -/
theorem growEnd_spec (hstart : start < text.length) (hge : start ≤ stop)
    (hstop : stop ≤ text.length) :
    start ≤ growEnd policy count text start stop
      ∧ growEnd policy count text start stop ≤ text.length
      ∧ (start < stop → start < growEnd policy count text start stop) := by
  induction stop using growEnd.induct policy count text start with
  | case1 stop h hover =>
    rw [growEnd, if_pos h, if_pos hover]
    omega
  | case2 stop h hover ih =>
    rw [growEnd, if_pos h, if_neg hover]
    have := h.1
    obtain ⟨hle, hlength, hgt⟩ := ih (by omega) (by omega)
    exact ⟨hle, hlength, fun _ => hgt (by omega)⟩
  | case3 stop h =>
    rw [growEnd, if_neg h]
    exact ⟨hge, hstop, id⟩

theorem windowEnd_spec (hstart : start < text.length) :
    start ≤ windowEnd policy count text start ∧ windowEnd policy count text start ≤ text.length
      ∧ (1 ≤ policy.targetChars → start < windowEnd policy count text start) := by
  obtain ⟨hge, hle, -, hgt⟩ := boundaryEnd_spec policy hstart
  obtain ⟨hshorter, hge', hgt', -⟩ :=
    shrinkEnd_spec policy count text start (boundaryEnd policy text start)
  obtain ⟨hge'', hle'', hgt''⟩ := growEnd_spec policy count hstart (hge' hge) (hshorter.trans hle)
  exact ⟨hge'', hle'', fun htarget => hgt'' (hgt' (hgt htarget))⟩

end Ends

/-! ## Tokens -/

/-- The approximate count is a bound on the length. -/
theorem countTokens_le_iff {tokens : Nat} :
    policy.countTokens text ≤ tokens ↔ text.length ≤ tokens * policy.charsPerToken := by
  have hpos := charsPerToken_pos policy
  have hdiv : (text.length + policy.charsPerToken - 1) / policy.charsPerToken ≤ tokens
      ↔ text.length ≤ tokens * policy.charsPerToken := by
    rw [← Nat.lt_succ_iff, Nat.div_lt_iff_lt_mul (by omega), Nat.succ_mul]
    omega
  unfold ChunkingPolicy.countTokens
  rw [Nat.max_le, hdiv]
  refine and_iff_left_of_imp fun hle => ?_
  split
  · exact Nat.zero_le _
  · next hne =>
    have := List.length_pos_of_ne_nil hne
    rcases Nat.eq_zero_or_pos tokens with rfl | htokens
    · omega
    · exact htokens

theorem slice_length (hle : start ≤ stop) (hstop : stop ≤ text.length) :
    (slice text start stop).length = stop - start := by
  rw [slice, List.length_take, List.length_drop]
  omega

theorem trimText_length_le (text : Text) : (trimText text).length ≤ text.length := by
  have := leading_add_length_trim_le isWhiteSpace text
  rw [trimText]
  omega

/-- A policy that keeps its hard limit: the target is not above it, or the steps of the loops are
not coarser than it. -/
def ChunkingPolicy.Consistent (policy : ChunkingPolicy) : Prop :=
  policy.targetTokens ≤ policy.maxTokens ∨ 16 ≤ policy.maxTokens * policy.charsPerToken

theorem shrinkEnd_fits (hpolicy : policy.Consistent) (hstart : start < text.length) :
    shrinkEnd policy policy.countTokens text start (boundaryEnd policy text start) - start
      ≤ policy.maxTokens * policy.charsPerToken := by
  obtain ⟨hge, hlength, htarget, -⟩ := boundaryEnd_spec policy hstart
  obtain ⟨hle, hge', -, hfits⟩ := shrinkEnd_spec policy policy.countTokens text start
    (boundaryEnd policy text start)
  rcases hfits with hfits | hshort
  · rw [countTokens_le_iff, slice_length (hge' hge) (by omega)] at hfits
    exact hfits
  · rcases hpolicy with hpolicy | hpolicy
    · have hsaturating := saturatingMul_le policy.targetTokens policy.charsPerToken
      have hmul := Nat.mul_le_mul_right policy.charsPerToken hpolicy
      rw [ChunkingPolicy.targetChars] at htarget
      omega
    · omega

theorem growEnd_fits (hlt : start < stop) (hstop : stop ≤ text.length)
    (hfits : stop - start ≤ policy.maxTokens * policy.charsPerToken) :
    growEnd policy policy.countTokens text start stop - start
      ≤ policy.maxTokens * policy.charsPerToken := by
  induction stop using growEnd.induct policy policy.countTokens text start with
  | case1 stop h hover =>
    rw [growEnd, if_pos h, if_pos hover]
    omega
  | case2 stop h hover ih =>
    rw [growEnd, if_pos h, if_neg hover]
    have := h.1
    rw [Nat.not_lt, countTokens_le_iff, slice_length (by omega) (by omega)] at hover
    exact ih (by omega) (by omega) hover
  | case3 stop h =>
    rw [growEnd, if_neg h]
    exact hfits

/-- With a consistent policy no window is too long. -/
theorem windowEnd_fits (hpolicy : policy.Consistent) (htarget : 1 ≤ policy.targetTokens)
    (hstart : start < text.length) :
    windowEnd policy policy.countTokens text start - start
      ≤ policy.maxTokens * policy.charsPerToken := by
  obtain ⟨-, hlength, -, hgt⟩ := boundaryEnd_spec policy hstart
  obtain ⟨hle, -, hgt', -⟩ := shrinkEnd_spec policy policy.countTokens text start
    (boundaryEnd policy text start)
  exact growEnd_fits (hgt' (hgt (targetChars_pos htarget))) (by omega)
    (shrinkEnd_fits hpolicy hstart)

/-! ## The windows -/

/-- A window was cut from the text. -/
structure TextWindow.CutFrom (window : TextWindow) (text : Text) : Prop where
  start_le : window.startChar ≤ window.endChar
  end_le : window.endChar ≤ text.length
  text_eq : window.text = trimText (slice text window.startChar window.endChar)

theorem windowAt_eq_some {window : TextWindow} (hstart : start < text.length)
    (h : windowAt policy count text start = some window) :
    window.startChar = start ∧ window.endChar = windowEnd policy count text start
      ∧ window.CutFrom text := by
  unfold windowAt at h
  dsimp only at h
  split at h
  · cases h
  · obtain rfl := Option.some.inj h
    obtain ⟨hge, hle, -⟩ := windowEnd_spec policy count hstart
    exact ⟨rfl, rfl, hge, hle, rfl⟩

theorem windowsFrom_cut :
    ∀ window ∈ windowsFrom policy count text start,
      start ≤ window.startChar ∧ window.startChar < text.length ∧ window.CutFrom text := by
  induction start using windowsFrom.induct policy count text with
  | case1 start hstart ih =>
    intro window hwindow
    rw [windowsFrom, if_pos hstart, List.mem_append, Option.mem_toList] at hwindow
    rcases hwindow with hwindow | hwindow
    · obtain ⟨hfirst, -, hcut⟩ := windowAt_eq_some hstart hwindow
      exact ⟨hfirst.ge, by omega, hcut⟩
    · split at hwindow
      · cases hwindow
      · next hend =>
        obtain ⟨hge, hlt, hcut⟩ := ih window hwindow
        have : start + 1 ≤ nextStart policy count text start := Nat.le_max_right _ _
        exact ⟨by omega, hlt, hcut⟩
  | case2 start hstart =>
    rw [windowsFrom, if_neg hstart]
    exact List.forall_mem_nil _

/-- Each window starts after the one before. -/
theorem windowsFrom_ordered :
    (windowsFrom policy count text start).Pairwise fun a b => a.startChar < b.startChar := by
  induction start using windowsFrom.induct policy count text with
  | case1 start hstart ih =>
    rw [windowsFrom, if_pos hstart, List.pairwise_append]
    refine ⟨by cases windowAt policy count text start <;> simp, ?_, ?_⟩
    · split
      · exact List.Pairwise.nil
      · exact ih
    · intro a ha b hb
      split at hb
      · cases hb
      · obtain ⟨hfirst, -⟩ := windowAt_eq_some hstart (Option.mem_toList.1 ha)
        obtain ⟨hge, -⟩ := windowsFrom_cut b hb
        have : start + 1 ≤ nextStart policy count text start := Nat.le_max_right _ _
        omega
  | case2 start hstart =>
    rw [windowsFrom, if_neg hstart]
    exact List.Pairwise.nil

/-! ## Coverage -/

/-- Every character between the two places that is not whitespace is in one of the windows. -/
def Covers (text : Text) (windows : List TextWindow) (start stop : Nat) : Prop :=
  ∀ i c, start ≤ i → i < stop → text[i]? = some c → isWhiteSpace c = false →
    ∃ window ∈ windows, window.startChar ≤ i ∧ i < window.endChar

/-- A character that is not whitespace makes a window. -/
theorem windowAt_isSome {i : Nat} {c : Char} (hge : start ≤ i)
    (hlt : i < windowEnd policy count text start) (hi : text[i]? = some c)
    (hc : isWhiteSpace c = false) : ∃ window, windowAt policy count text start = some window := by
  unfold windowAt
  dsimp only
  rw [if_neg]
  · exact ⟨_, rfl⟩
  · intro hnil
    have hblank := trimText_eq_nil.1 hnil
    have hmem : c ∈ slice text start (windowEnd policy count text start) := by
      refine List.mem_of_getElem? (i := i - start) ?_
      rw [slice, List.getElem?_take_of_lt (by omega), List.getElem?_drop]
      rwa [Nat.add_sub_cancel' hge]
    rw [isBlank, List.all_eq_true] at hblank
    rw [hblank c hmem] at hc
    cases hc

/-- The first window covers its part of the text. -/
theorem covered_by_first (hstart : start < text.length)
    {i : Nat} {c : Char} (hge : start ≤ i) (hlt : i < windowEnd policy count text start)
    (hi : text[i]? = some c) (hc : isWhiteSpace c = false) :
    ∃ window, windowAt policy count text start = some window ∧ window.startChar ≤ i
      ∧ i < window.endChar := by
  obtain ⟨window, hwindow⟩ := windowAt_isSome hge hlt hi hc
  obtain ⟨hfirst, hend, -⟩ := windowAt_eq_some hstart hwindow
  exact ⟨window, hwindow, by omega, by omega⟩

/-- A window among the first ones ends where these have covered everything before. -/
theorem windowsFrom_take_covers (htarget : 1 ≤ policy.targetTokens) {number : Nat} :
    ∀ window ∈ (windowsFrom policy count text start).take number,
      Covers text ((windowsFrom policy count text start).take number) start window.endChar := by
  induction start using windowsFrom.induct policy count text generalizing number with
  | case1 start hstart ih =>
    have hnext : nextStart policy count text start ≤ windowEnd policy count text start := by
      have := (windowEnd_spec policy count hstart).2.2 (targetChars_pos htarget)
      rw [nextStart]
      omega
    -- the windows after the first one, and what they have covered
    have hrest : ∀ {number : Nat}, ∀ window ∈ (if text.length
        ≤ windowEnd policy count text start then []
        else windowsFrom policy count text (nextStart policy count text start)).take number,
        Covers text ((if text.length ≤ windowEnd policy count text start then []
          else windowsFrom policy count text (nextStart policy count text start)).take number)
          (nextStart policy count text start) window.endChar := by
      intro number window hwindow
      split at hwindow
      · rw [List.take_nil] at hwindow
        cases hwindow
      · next hend =>
        rw [if_neg hend]
        exact ih window hwindow
    rw [windowsFrom, if_pos hstart]
    cases hfirst : windowAt policy count text start with
    | none =>
      intro window hwindow i c hge hlt hi hc
      by_cases hi' : i < windowEnd policy count text start
      · obtain ⟨first, hsome, -⟩ := covered_by_first hstart hge hi' hi hc
        rw [hfirst] at hsome
        cases hsome
      · exact hrest window hwindow i c (by omega) hlt hi hc
    | some first =>
      cases number with
      | zero => exact List.forall_mem_nil _
      | succ number =>
        intro window hwindow i c hge hlt hi hc
        rw [Option.toList_some, List.singleton_append, List.take_succ_cons] at hwindow ⊢
        by_cases hi' : i < windowEnd policy count text start
        · obtain ⟨covering, hsome, hplace⟩ := covered_by_first hstart hge hi' hi hc
          rw [hfirst] at hsome
          obtain rfl := Option.some.inj hsome
          exact ⟨first, List.mem_cons_self .., hplace⟩
        · rcases List.mem_cons.1 hwindow with rfl | hwindow
          · obtain ⟨-, hend, -⟩ := windowAt_eq_some hstart hfirst
            omega
          · obtain ⟨covering, hmem, hplace⟩ := hrest window hwindow i c (by omega) hlt hi hc
            exact ⟨covering, List.mem_cons_of_mem _ hmem, hplace⟩
  | case2 start hstart =>
    rw [windowsFrom, if_neg hstart, List.take_nil]
    exact List.forall_mem_nil _

theorem windowsFrom_covers (htarget : 1 ≤ policy.targetTokens) :
    Covers text (windowsFrom policy count text start) start text.length := by
  induction start using windowsFrom.induct policy count text with
  | case1 start hstart ih =>
    intro i c hge hlt hi hc
    rw [windowsFrom, if_pos hstart]
    by_cases hi' : i < windowEnd policy count text start
    · obtain ⟨first, hfirst, hplace⟩ := covered_by_first hstart hge hi' hi hc
      exact ⟨first, List.mem_append_left _ (Option.mem_toList.2 hfirst), hplace⟩
    · have := (windowEnd_spec policy count hstart).2.2 (targetChars_pos htarget)
      rw [if_neg (by omega)]
      obtain ⟨window, hmem, hplace⟩ := ih i c (by rw [nextStart]; omega) hlt hi hc
      exact ⟨window, List.mem_append_right _ hmem, hplace⟩
  | case2 start hstart =>
    intro i c hge hlt
    omega

theorem windowsFrom_fits (hpolicy : policy.Consistent) (htarget : 1 ≤ policy.targetTokens) :
    ∀ window ∈ windowsFrom policy policy.countTokens text start,
      window.text.length ≤ policy.maxTokens * policy.charsPerToken := by
  induction start using windowsFrom.induct policy policy.countTokens text with
  | case1 start hstart ih =>
    intro window hwindow
    rw [windowsFrom, if_pos hstart, List.mem_append, Option.mem_toList] at hwindow
    rcases hwindow with hwindow | hwindow
    · obtain ⟨hfirst, hend, -, -, htext⟩ := windowAt_eq_some hstart hwindow
      have hfits := windowEnd_fits hpolicy htarget hstart
      have htrim := trimText_length_le (slice text window.startChar window.endChar)
      have hslice := slice_length_le text window.startChar window.endChar
      rw [htext]
      omega
    · split at hwindow
      · cases hwindow
      · exact ih window hwindow
  | case2 start hstart =>
    rw [windowsFrom, if_neg hstart]
    exact List.forall_mem_nil _

/-! ## Segments -/

theorem slice_self (text : Text) : slice text 0 text.length = text := by
  rw [slice, List.drop_zero, Nat.sub_zero, List.take_length]

/-- Every window of a segment was cut from it. -/
theorem tokenizeWindows_cut :
    ∀ window ∈ tokenizeWindows policy count text,
      window.startChar < text.length ∧ window.CutFrom text := by
  unfold tokenizeWindows
  split
  · exact List.forall_mem_nil _
  · next hne =>
    split
    · refine List.forall_mem_singleton.2 ⟨List.length_pos_of_ne_nil hne, Nat.zero_le _, le_rfl, ?_⟩
      rw [slice_self]
    · exact fun window hwindow => (windowsFrom_cut window hwindow).2

theorem tokenizeWindows_ordered :
    (tokenizeWindows policy count text).Pairwise fun a b => a.startChar < b.startChar := by
  unfold tokenizeWindows
  split
  · exact List.Pairwise.nil
  · split
    · exact List.pairwise_singleton _ _
    · exact windowsFrom_ordered

theorem tokenizeWindows_take_covers (htarget : 1 ≤ policy.targetTokens) {number : Nat} :
    ∀ window ∈ (tokenizeWindows policy count text).take number,
      Covers text ((tokenizeWindows policy count text).take number) 0 window.endChar := by
  unfold tokenizeWindows
  split
  · rw [List.take_nil]
    exact List.forall_mem_nil _
  · split
    · cases number with
      | zero => exact List.forall_mem_nil _
      | succ number =>
        intro window hwindow i c _ hlt _ _
        rw [List.take_succ_cons, List.take_nil] at hwindow ⊢
        obtain rfl := List.mem_singleton.1 hwindow
        exact ⟨_, hwindow, Nat.zero_le _, hlt⟩
    · exact windowsFrom_take_covers htarget

theorem tokenizeWindows_covers (htarget : 1 ≤ policy.targetTokens) :
    Covers text (tokenizeWindows policy count text) 0 text.length := by
  unfold tokenizeWindows
  split
  · next hnil =>
    intro i c _ hlt
    rw [hnil] at hlt
    exact absurd hlt (Nat.not_lt_zero _)
  · split
    · exact fun i _ _ hlt _ _ => ⟨_, List.mem_singleton_self _, Nat.zero_le _, hlt⟩
    · exact windowsFrom_covers htarget

/-- A segment that is not blank has a window. -/
theorem tokenizeWindows_ne_nil (htarget : 1 ≤ policy.targetTokens) (h : isBlank text = false) :
    tokenizeWindows policy count text ≠ [] := by
  obtain ⟨c, hmem, hc⟩ := List.all_eq_false.1 h
  obtain ⟨i, hlt, hi⟩ := List.mem_iff_getElem.1 hmem
  obtain ⟨window, hwindow, -⟩ := @tokenizeWindows_covers policy count text htarget i c
    (Nat.zero_le i) hlt (List.getElem?_eq_some_iff.2 ⟨hlt, hi⟩) (Bool.eq_false_iff.2 hc)
  exact List.ne_nil_of_mem hwindow

end Zemo.Search.Chunking
