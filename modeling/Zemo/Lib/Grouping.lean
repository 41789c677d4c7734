import Mathlib.Data.List.Infix
import Mathlib.Data.List.Perm.Basic
import Mathlib.Data.List.Sort

set_option autoImplicit false

/-! # Grouping by a key

The elements of a list are put into a map in the order of their keys. An element whose key the map
has is combined with the element that is there, so every group is folded from its first element, in
the order of the list. What a group is folded to can depend on the order, and every choice of the
first elements of the groups is that of some order. -/

namespace Grouping

variable {α κ : Type} [LinearOrder κ] (key : α → κ) (combine : α → α → α)

/-- The map with one more element. -/
def put (a : α) : List α → List α
  | [] => [a]
  | b :: rest =>
      if key a = key b then combine b a :: rest
      else if key a < key b then a :: b :: rest
      else b :: put a rest

/-- The map of a list. -/
def collect (items : List α) : List α := items.foldl (fun groups a => put key combine a groups) []

/-- The elements of a key. -/
def group (items : List α) (k : κ) : List α := items.filter fun a => key a = k

/-- What the elements of a key are folded to. -/
def folded (items : List α) (k : κ) : Option α :=
  match group key items k with
  | [] => none
  | first :: rest => some (rest.foldl combine first)

variable {key combine} {items groups : List α} {a b : α} {k : κ}

/-- Combining keeps the key of the element that is there. -/
def KeepsKey (key : α → κ) (combine : α → α → α) : Prop := ∀ b a, key (combine b a) = key b

omit [LinearOrder κ] in
theorem KeepsKey.foldl (hkeeps : KeepsKey key combine) (rest : List α) (first : α) :
    key (rest.foldl combine first) = key first := by
  induction rest generalizing first with
  | nil => rfl
  | cons a rest ih => rw [List.foldl_cons, ih, hkeeps]

/-! ## The map -/

theorem mem_put (hsorted : groups.Pairwise fun x y => key x < key y) :
    b ∈ put key combine a groups ↔
      (b ∈ groups ∧ key b ≠ key a) ∨ (∃ c ∈ groups, key c = key a ∧ b = combine c a)
        ∨ ((∀ c ∈ groups, key c ≠ key a) ∧ b = a) := by
  induction groups with
  | nil => simp [put]
  | cons c rest ih =>
    obtain ⟨hc, hrest⟩ := List.pairwise_cons.1 hsorted
    unfold put
    split
    · next heq =>
      have hne : ∀ d ∈ rest, key d ≠ key a := fun d hd => heq ▸ (hc d hd).ne'
      simp only [List.mem_cons, exists_eq_or_imp, forall_eq_or_imp, heq]
      constructor
      · rintro (rfl | hb)
        · exact Or.inr (Or.inl (Or.inl ⟨trivial, rfl⟩))
        · exact Or.inl ⟨Or.inr hb, heq ▸ hne b hb⟩
      · rintro (⟨rfl | hb, hkey⟩ | (⟨-, rfl⟩ | ⟨d, hd, hkey, -⟩) | ⟨⟨hkey, -⟩, -⟩)
        · exact absurd rfl hkey
        · exact Or.inr hb
        · exact Or.inl rfl
        · exact absurd (hkey.trans heq.symm) (hne d hd)
        · exact absurd rfl hkey
    · next hne =>
      have hca : key c ≠ key a := fun h => hne h.symm
      split
      · next hlt =>
        have hafter : ∀ d ∈ rest, key d ≠ key a := fun d hd => (hlt.trans (hc d hd)).ne'
        simp only [List.mem_cons, exists_eq_or_imp, forall_eq_or_imp]
        constructor
        · rintro (rfl | rfl | hb)
          · exact Or.inr (Or.inr ⟨⟨hca, hafter⟩, rfl⟩)
          · exact Or.inl ⟨Or.inl rfl, hca⟩
          · exact Or.inl ⟨Or.inr hb, hafter b hb⟩
        · rintro (⟨hb, -⟩ | (⟨hkey, -⟩ | ⟨d, hd, hkey, -⟩) | ⟨-, rfl⟩)
          · exact Or.inr hb
          · exact absurd hkey hca
          · exact absurd hkey (hafter d hd)
          · exact Or.inl rfl
      · rw [List.mem_cons, ih hrest]
        simp only [List.mem_cons, exists_eq_or_imp, forall_eq_or_imp]
        constructor
        · rintro (rfl | ⟨hb, hkey⟩ | hb | ⟨hall, rfl⟩)
          · exact Or.inl ⟨Or.inl rfl, hca⟩
          · exact Or.inl ⟨Or.inr hb, hkey⟩
          · exact Or.inr (Or.inl (Or.inr hb))
          · exact Or.inr (Or.inr ⟨⟨hca, hall⟩, rfl⟩)
        · rintro (⟨rfl | hb, hkey⟩ | (⟨hkey, -⟩ | hb) | ⟨⟨-, hall⟩, rfl⟩)
          · exact Or.inl rfl
          · exact Or.inr (Or.inl ⟨hb, hkey⟩)
          · exact absurd hkey hca
          · exact Or.inr (Or.inr (Or.inl hb))
          · exact Or.inr (Or.inr (Or.inr ⟨hall, rfl⟩))

theorem put_sorted (hkeeps : KeepsKey key combine)
    (hsorted : groups.Pairwise fun x y => key x < key y) :
    (put key combine a groups).Pairwise fun x y => key x < key y := by
  induction groups with
  | nil => simp [put]
  | cons c rest ih =>
    obtain ⟨hc, hrest⟩ := List.pairwise_cons.1 hsorted
    unfold put
    split
    · refine List.pairwise_cons.2 ⟨fun d hd => ?_, hrest⟩
      rw [hkeeps]
      exact hc d hd
    · next hne =>
      split
      · next hlt =>
        refine List.pairwise_cons.2 ⟨fun d hd => ?_, hsorted⟩
        rcases List.mem_cons.1 hd with rfl | hd
        · exact hlt
        · exact hlt.trans (hc d hd)
      · next hle =>
        refine List.pairwise_cons.2 ⟨fun d hd => ?_, ih hrest⟩
        rcases (mem_put hrest).1 hd with ⟨hd, -⟩ | ⟨e, he, -, rfl⟩ | ⟨-, rfl⟩
        · exact hc d hd
        · rw [hkeeps]
          exact hc e he
        · exact lt_of_le_of_ne (not_lt.1 hle) fun h => hne h.symm

theorem collect_concat (items : List α) (a : α) :
    collect key combine (items ++ [a]) = put key combine a (collect key combine items) := by
  rw [collect, List.foldl_append]
  rfl

theorem collect_sorted (hkeeps : KeepsKey key combine) (items : List α) :
    (collect key combine items).Pairwise fun x y => key x < key y := by
  induction items using List.reverseRecOn with
  | nil => exact List.Pairwise.nil
  | append_singleton items a ih =>
    rw [collect_concat]
    exact put_sorted hkeeps ih

/-- **The map holds what the groups are folded to.** -/
theorem mem_collect (hkeeps : KeepsKey key combine) :
    b ∈ collect key combine items ↔ folded key combine items (key b) = some b := by
  induction items using List.reverseRecOn generalizing b with
  | nil => simp [collect, folded, group]
  | append_singleton items a ih =>
    rw [collect_concat, mem_put (collect_sorted hkeeps items)]
    -- the group of the last element ends with it, the others are as before
    have hother : ∀ k, k ≠ key a → folded key combine (items ++ [a]) k = folded key combine items k :=
      fun k hk => by simp [folded, group, List.filter_append, hk.symm]
    have hown : folded key combine (items ++ [a]) (key a) =
        some ((folded key combine items (key a)).elim a fun c => combine c a) := by
      simp only [folded, group, List.filter_append]
      cases items.filter fun x => key x = key a with
      | nil => simp
      | cons first rest => simp [List.foldl_append]
    by_cases hb : key b = key a
    · rw [hb, hown]
      cases hfold : folded key combine items (key a) with
      | none =>
        have hnone : ∀ c ∈ collect key combine items, key c ≠ key a := fun c hc hkey => by
          have := ih.1 hc
          rw [hkey, hfold] at this
          cases this
        simp only [ne_eq, not_true_eq_false, and_false, false_or, Option.some_inj]
        constructor
        · rintro (⟨c, hc, hkey, -⟩ | ⟨-, rfl⟩)
          · exact absurd hkey (hnone c hc)
          · rfl
        · rintro rfl
          exact Or.inr ⟨hnone, rfl⟩
      | some c =>
        have hc : key c = key a := by
          unfold folded at hfold
          split at hfold
          · cases hfold
          · next first rest hgroup =>
            obtain rfl := Option.some.inj hfold
            rw [hkeeps.foldl]
            have hmem : first ∈ group key items (key a) := by
              rw [hgroup]
              exact List.mem_cons_self ..
            exact of_decide_eq_true (List.mem_filter.1 hmem).2
        have hmem : c ∈ collect key combine items := ih.2 (hc ▸ hfold)
        simp only [ne_eq, not_true_eq_false, and_false, false_or, Option.some_inj]
        constructor
        · rintro (⟨d, hd, hkey, rfl⟩ | ⟨hall, -⟩)
          · have := ih.1 hd
            rw [hkey, hfold] at this
            rw [this]
            rfl
          · exact absurd hc (hall c hmem)
        · rintro rfl
          exact Or.inl ⟨c, hmem, hc, rfl⟩
    · rw [hother _ hb, ← ih]
      constructor
      · rintro (⟨hmem, -⟩ | ⟨c, -, hkey, rfl⟩ | ⟨-, rfl⟩)
        · exact hmem
        · exact absurd ((hkeeps c a).trans hkey) hb
        · exact absurd rfl hb
      · exact fun hmem => Or.inl ⟨hmem, hb⟩

/-! ## What comes first -/

/-- The first element of a key. -/
def firstOf (key : α → κ) (k : κ) (items : List α) : Option α := items.find? fun a => key a = k

theorem folded_eq (k : κ) :
    folded key combine items k = (firstOf key k items).map fun first =>
      (group key items k).tail.foldl combine first := by
  rw [folded, firstOf, ← List.head?_filter, ← group]
  cases group key items k <;> rfl

theorem mem_group : a ∈ group key items k ↔ a ∈ items ∧ key a = k := by
  rw [group, List.mem_filter, decide_eq_true_eq]

theorem group_of_firstOf (h : firstOf key k items = some a) :
    ∃ rest, group key items k = a :: rest := by
  rw [firstOf, ← List.head?_filter] at h
  exact ⟨_, (List.cons_head?_tail h).symm⟩

theorem key_firstOf (h : firstOf key k items = some a) : a ∈ items ∧ key a = k :=
  ⟨List.mem_of_find?_eq_some h, of_decide_eq_true (List.find?_some h :)⟩

theorem exists_firstOf (ha : a ∈ items) : ∃ first, firstOf key (key a) items = some first := by
  cases h : firstOf key (key a) items with
  | some first => exact ⟨first, rfl⟩
  | none => simpa using List.find?_eq_none.1 h a ha

/-- An element can be put in front. -/
theorem exists_perm_first (ha : a ∈ items) :
    ∃ order : List α, order.Perm items ∧ firstOf key (key a) order = some a
      ∧ ∀ k, k ≠ key a → firstOf key k order = firstOf key k items := by
  obtain ⟨front, back, rfl⟩ := List.append_of_mem ha
  refine ⟨a :: (front ++ back), List.perm_middle.symm, by simp [firstOf], fun k hk => ?_⟩
  simp only [firstOf, List.find?_append, List.find?_cons, hk.symm, decide_false]

/-- **Every choice of first elements is that of some order.** -/
theorem exists_perm_firsts {firsts : List α} (hmem : ∀ a ∈ firsts, a ∈ items)
    (hkeys : firsts.Pairwise fun a b => key a ≠ key b) :
    ∃ order : List α, order.Perm items ∧ (∀ a ∈ firsts, firstOf key (key a) order = some a)
      ∧ ∀ k, (∀ a ∈ firsts, key a ≠ k) → firstOf key k order = firstOf key k items := by
  induction firsts with
  | nil => exact ⟨items, .refl _, List.forall_mem_nil _, fun _ _ => rfl⟩
  | cons a rest ih =>
    obtain ⟨hhead, htail⟩ := List.pairwise_cons.1 hkeys
    obtain ⟨order, hperm, hrest, hother⟩ :=
      ih (fun b hb => hmem b (List.mem_cons_of_mem _ hb)) htail
    obtain ⟨order', hperm', hfirst, hkeep⟩ :=
      @exists_perm_first _ _ _ key _ _ (hperm.mem_iff.2 (hmem a (List.mem_cons_self ..)))
    refine ⟨order', hperm'.trans hperm, fun b hb => ?_, fun k hk => ?_⟩
    · rcases List.mem_cons.1 hb with rfl | hb
      · exact hfirst
      · rw [hkeep _ (hhead b hb).symm]
        exact hrest b hb
    · rw [hkeep k (hk a (List.mem_cons_self ..)).symm]
      exact hother k fun b hb => hk b (List.mem_cons_of_mem _ hb)

/-- There is an order in which all first elements are of a kind that every group has. -/
theorem exists_perm_forall_first {P : α → Prop}
    (hP : ∀ a ∈ items, ∃ b ∈ items, key b = key a ∧ P b) :
    ∃ order : List α, order.Perm items
      ∧ ∀ k a, firstOf key k order = some a → P a := by
  choose! pick hmem hkey hpick using hP
  -- one element of every key is enough
  obtain ⟨chosen, hsub, hall, hpairwise⟩ : ∃ chosen : List α, (∀ a ∈ chosen, a ∈ items)
      ∧ (∀ a ∈ items, ∃ b ∈ chosen, key b = key a)
      ∧ chosen.Pairwise fun a b => key a ≠ key b := by
    clear hmem hkey hpick
    induction items with
    | nil => exact ⟨[], List.forall_mem_nil _, List.forall_mem_nil _, List.Pairwise.nil⟩
    | cons a rest ih =>
      obtain ⟨chosen, hsub, hall, hpairwise⟩ := ih
      by_cases ha : ∃ b ∈ chosen, key b = key a
      · exact ⟨chosen, fun b hb => List.mem_cons_of_mem _ (hsub b hb),
          List.forall_mem_cons.2 ⟨ha, hall⟩, hpairwise⟩
      · refine ⟨a :: chosen, List.forall_mem_cons.2 ⟨List.mem_cons_self ..,
          fun b hb => List.mem_cons_of_mem _ (hsub b hb)⟩,
          List.forall_mem_cons.2 ⟨⟨a, List.mem_cons_self .., rfl⟩, fun b hb => ?_⟩,
          List.pairwise_cons.2 ⟨fun b hb heq => ha ⟨b, hb, heq.symm⟩, hpairwise⟩⟩
        obtain ⟨c, hc, hkey⟩ := hall b hb
        exact ⟨c, List.mem_cons_of_mem _ hc, hkey⟩
  obtain ⟨order, hperm, hfirsts, -⟩ := @exists_perm_firsts _ _ _ key items (chosen.map pick)
    (fun a ha => by
      obtain ⟨b, hb, rfl⟩ := List.mem_map.1 ha
      exact hmem b (hsub b hb))
    (List.pairwise_map.2 (hpairwise.imp_of_mem fun ha hb hne heq => hne (by
      rw [hkey _ (hsub _ ha), hkey _ (hsub _ hb)] at heq
      exact heq)))
  refine ⟨order, hperm, fun k a ha => ?_⟩
  obtain ⟨haMem, rfl⟩ := key_firstOf ha
  obtain ⟨b, hb, hbKey⟩ := hall a (hperm.mem_iff.1 haMem)
  have hfirst := hfirsts (pick b) (List.mem_map_of_mem hb)
  rw [hkey b (hsub b hb), hbKey, ha] at hfirst
  rw [Option.some.inj hfirst]
  exact hpick b (hsub b hb)

/-! ## The greatest -/

section Greatest

variable {β : Type} [LinearOrder β] {score : α → β}

omit [LinearOrder κ] in
theorem exists_greatest (score : α → β) (h : items ≠ []) :
    ∃ a ∈ items, ∀ b ∈ items, score b ≤ score a := by
  induction items with
  | nil => exact absurd rfl h
  | cons a rest ih =>
    by_cases hnil : rest = []
    · exact ⟨a, List.mem_cons_self .., by simp [hnil]⟩
    · obtain ⟨b, hb, hgreatest⟩ := ih hnil
      rcases le_total (score a) (score b) with hle | hle
      · exact ⟨b, List.mem_cons_of_mem _ hb, List.forall_mem_cons.2 ⟨hle, hgreatest⟩⟩
      · exact ⟨a, List.mem_cons_self .., List.forall_mem_cons.2
          ⟨le_refl _, fun c hc => (hgreatest c hc).trans hle⟩⟩

omit [LinearOrder κ] in
/-- A stable sort begins with the first of the greatest. -/
theorem head?_insertionSort {sorted : List α} {before : α → α → Prop} {a : α}
    (hsorted : sorted.Pairwise before)
    (h : (sorted.insertionSort fun x y => score y ≤ score x).head? = some a) :
    a ∈ sorted ∧ ∀ b ∈ sorted, score b ≤ score a ∧ (score b = score a → b = a ∨ before a b) := by
  induction sorted generalizing a with
  | nil => cases h
  | cons c rest ih =>
    obtain ⟨hc, hrest⟩ := List.pairwise_cons.1 hsorted
    rw [List.insertionSort_cons] at h
    cases hsort : rest.insertionSort fun x y => score y ≤ score x with
    | nil =>
      rw [hsort] at h
      obtain rfl := Option.some.inj h
      have hnil : rest = [] := by
        rw [← List.length_eq_zero_iff, ← List.length_insertionSort (fun x y => score y ≤ score x),
          hsort]
        rfl
      subst hnil
      simp
    | cons d others =>
      obtain ⟨hd, hgreatest⟩ := ih hrest (by rw [hsort]; rfl)
      rw [hsort, List.orderedInsert_cons] at h
      split at h
      · next hle =>
        obtain rfl := Option.some.inj h
        refine ⟨List.mem_cons_self .., fun b hb => ?_⟩
        rcases List.mem_cons.1 hb with rfl | hb
        · exact ⟨le_refl _, fun _ => Or.inl rfl⟩
        · exact ⟨(hgreatest b hb).1.trans hle, fun _ => Or.inr (hc b hb)⟩
      · next hlt =>
        obtain rfl := Option.some.inj h
        refine ⟨List.mem_cons_of_mem _ hd, fun b hb => ?_⟩
        rcases List.mem_cons.1 hb with rfl | hb
        · exact ⟨(not_le.1 hlt).le, fun heq => absurd heq.ge hlt⟩
        · exact hgreatest b hb

omit [LinearOrder κ] in
/-- The second is the greatest of the others. -/
theorem le_second {sorted : List α} {a second b : α} {rest : List α}
    (h : (sorted.insertionSort fun x y => score y ≤ score x) = a :: second :: rest)
    (hb : b ∈ sorted) (hne : b ≠ a) : score b ≤ score second := by
  have hpairwise := List.pairwise_insertionSort (fun x y : α => score y ≤ score x) sorted
  have hmem := (List.mem_insertionSort fun x y : α => score y ≤ score x).2 hb
  rw [h] at hpairwise hmem
  rcases List.mem_cons.1 hmem with rfl | hmem
  · exact absurd rfl hne
  · rcases List.mem_cons.1 hmem with rfl | hmem
    · exact le_refl _
    · exact (List.pairwise_cons.1 (List.pairwise_cons.1 hpairwise).2).1 b hmem

end Greatest

end Grouping

/-! ## Lists made of blocks

A list is put together from a block for each member of another list, and a remainder. Where a tag
tells which block an element is from, two such lists have the same elements exactly when their
blocks and their remainders do. -/

namespace Tagged

variable {α β τ : Type} [DecidableEq τ] {l : List α} {mark : α → τ} {tag : β → Option τ}
  {block block' : α → List β} {rest rest' : List β}

/-- The elements with the tag of a member are those of its block. -/
theorem filter_blocks (hmark : (l.map mark).Nodup)
    (hblock : ∀ a ∈ l, ∀ b ∈ block a, tag b = some (mark a)) {a : α} (ha : a ∈ l) :
    (l.flatMap block).filter (fun b => tag b = some (mark a)) = block a := by
  induction l with
  | nil => exact absurd ha List.not_mem_nil
  | cons first l ih =>
      rw [List.map_cons, List.nodup_cons] at hmark
      have hrest := ih hmark.2 (fun c hc => hblock c (List.mem_cons_of_mem _ hc))
      have hfirst := hblock first (List.mem_cons_self ..)
      rw [List.flatMap_cons, List.filter_append]
      rcases List.mem_cons.1 ha with rfl | ha
      · have hown : (block a).filter (fun b => tag b = some (mark a)) = block a :=
          List.filter_eq_self.2 fun b hb => decide_eq_true (hfirst b hb)
        have hnone : (l.flatMap block).filter (fun b => tag b = some (mark a)) = [] := by
          rw [List.filter_eq_nil_iff]
          intro b hb htag
          obtain ⟨c, hc, hbc⟩ := List.mem_flatMap.1 hb
          rw [decide_eq_true_eq, hblock c (List.mem_cons_of_mem _ hc) b hbc, Option.some_inj] at htag
          exact hmark.1 (htag ▸ List.mem_map_of_mem hc)
        rw [hown, hnone, List.append_nil]
      · have hnone : (block first).filter (fun b => tag b = some (mark a)) = [] := by
          rw [List.filter_eq_nil_iff]
          intro b hb htag
          rw [decide_eq_true_eq, hfirst b hb, Option.some_inj] at htag
          exact hmark.1 (htag ▸ List.mem_map_of_mem ha)
        rw [hnone, List.nil_append, hrest ha]

omit [DecidableEq τ] in
theorem filter_rest (hblock : ∀ a ∈ l, ∀ b ∈ block a, tag b = some (mark a)) :
    (l.flatMap block).filter (fun b => tag b = none) = [] := by
  rw [List.filter_eq_nil_iff]
  intro b hb htag
  obtain ⟨c, hc, hbc⟩ := List.mem_flatMap.1 hb
  rw [decide_eq_true_eq, hblock c hc b hbc] at htag
  exact nomatch htag

/-- **Two lists of blocks** have the same elements exactly when the blocks and the remainders do. -/
theorem perm_iff (tag : β → Option τ) (hmark : (l.map mark).Nodup)
    (hblock : ∀ a ∈ l, ∀ b ∈ block a, tag b = some (mark a))
    (hblock' : ∀ a ∈ l, ∀ b ∈ block' a, tag b = some (mark a))
    (hrest : ∀ b ∈ rest, tag b = none) (hrest' : ∀ b ∈ rest', tag b = none) :
    (l.flatMap block ++ rest).Perm (l.flatMap block' ++ rest')
      ↔ (∀ a ∈ l, (block a).Perm (block' a)) ∧ rest.Perm rest' := by
  constructor
  · intro h
    refine ⟨fun a ha => ?_, ?_⟩
    · have hnone (rest : List β) (hr : ∀ b ∈ rest, tag b = none) :
          rest.filter (fun b => tag b = some (mark a)) = [] := by
        rw [List.filter_eq_nil_iff]
        intro b hb htag
        rw [decide_eq_true_eq, hr b hb] at htag
        exact nomatch htag
      have hperm := h.filter (fun b => tag b = some (mark a))
      rwa [List.filter_append, List.filter_append, filter_blocks hmark hblock ha,
        filter_blocks hmark hblock' ha, hnone rest hrest, hnone rest' hrest', List.append_nil,
        List.append_nil] at hperm
    · have hall (rest : List β) (hr : ∀ b ∈ rest, tag b = none) :
          rest.filter (fun b => tag b = none) = rest :=
        List.filter_eq_self.2 fun b hb => decide_eq_true (hr b hb)
      have hperm := h.filter (fun b => tag b = none)
      rwa [List.filter_append, List.filter_append, filter_rest hblock, filter_rest hblock',
        hall rest hrest, hall rest' hrest', List.nil_append, List.nil_append] at hperm
  · rintro ⟨hblocks, hremainder⟩
    exact (List.Perm.flatMap_left l hblocks).append hremainder

end Tagged
