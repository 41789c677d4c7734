import Mathlib.Data.List.Sort
import Mathlib.Data.List.Perm.Basic

set_option autoImplicit false

/-! # Numbered rows

The rows of a table are put in order by a position they carry, then by their id. They are numbered
when the positions in that order are `0, 1, 2, …`: then the order is one of the rows themselves, the
ids decide nothing, and a row with the next number comes last. Writing the numbers `0, 1, 2, …` to
the rows with the given ids, one after the other, puts the rows in the order of the ids. -/

namespace Numbered

variable {ρ ι : Type} [LinearOrder ι] (id : ρ → ι) (position : ρ → Nat)

/-- By position, then by id. -/
def Before (a b : ρ) : Prop := position a < position b ∨ position a = position b ∧ id a ≤ id b

instance : DecidableRel (Before id position) :=
  fun _ _ => inferInstanceAs (Decidable (_ ∨ _ ∧ _))

/-- The rows by position, then by id. -/
def inOrder (rows : List ρ) : List ρ := rows.insertionSort (Before id position)

variable {id position} {rows listed : List ρ} {row : ρ}

/-! ## The order -/

theorem before_total (a b : ρ) : Before id position a b ∨ Before id position b a := by
  unfold Before
  rcases Nat.lt_trichotomy (position a) (position b) with h | h | h
  · exact .inl (.inl h)
  · rcases le_total (id a) (id b) with hid | hid
    · exact .inl (.inr ⟨h, hid⟩)
    · exact .inr (.inr ⟨h.symm, hid⟩)
  · exact .inr (.inl h)

theorem before_trans {a b c : ρ} (hab : Before id position a b) (hbc : Before id position b c) :
    Before id position a c := by
  unfold Before at *
  rcases hab with hab | ⟨hab, hid⟩
  · exact .inl (by omega)
  · rcases hbc with hbc | ⟨hbc, hid'⟩
    · exact .inl (by omega)
    · exact .inr ⟨by omega, hid.trans hid'⟩

theorem inOrder_perm (rows : List ρ) : (inOrder id position rows).Perm rows :=
  List.perm_insertionSort _ _

@[simp] theorem mem_inOrder : row ∈ inOrder id position rows ↔ row ∈ rows :=
  (inOrder_perm rows).mem_iff

@[simp] theorem length_inOrder (rows : List ρ) : (inOrder id position rows).length = rows.length :=
  (inOrder_perm rows).length_eq

theorem inOrder_pairwise (rows : List ρ) :
    (inOrder id position rows).Pairwise (Before id position) := by
  have : Std.Total (Before id position) := ⟨before_total⟩
  have : IsTrans ρ (Before id position) := ⟨fun _ _ _ => before_trans⟩
  exact List.pairwise_insertionSort _ _

/-- Rows listed with growing positions are in order. -/
theorem inOrder_eq (hperm : rows.Perm listed)
    (hlisted : listed.Pairwise fun a b => position a < position b) :
    inOrder id position rows = listed := by
  have hnodup : (listed.map position).Nodup :=
    List.pairwise_map.2 (hlisted.imp fun h => Nat.ne_of_lt h)
  refine @List.Perm.eq_of_pairwise _ (Before id position) _ _ ?_ (inOrder_pairwise rows)
    (hlisted.imp .inl) ((inOrder_perm rows).trans hperm)
  intro a b ha hb hab hba
  rw [mem_inOrder, hperm.mem_iff] at ha
  refine List.inj_on_of_nodup_map hnodup ha hb ?_
  unfold Before at hab hba
  omega

/-- Rows with their order kept. -/
theorem inOrder_map {f : ρ → ρ} (hid : ∀ row, id (f row) = id row)
    (hposition : ∀ row, position (f row) = position row) :
    inOrder id position (rows.map f) = (inOrder id position rows).map f := by
  refine (List.map_insertionSort _ _ f rows fun a _ b _ => ?_).symm
  unfold Before
  rw [hid, hid, hposition, hposition]

/-! ## Numbers -/

/-- The rows are numbered as listed. -/
def IsNumbered (id : ρ → ι) (position : ρ → Nat) (rows : List ρ) : Prop :=
  (inOrder id position rows).map position = List.range rows.length

theorem IsNumbered.pairwise (h : IsNumbered id position rows) :
    (inOrder id position rows).Pairwise fun a b => position a < position b := by
  rw [← List.pairwise_map (R := (· < ·)), h]
  exact List.pairwise_lt_range

theorem isNumbered_of_listed (hperm : rows.Perm listed)
    (hlisted : listed.map position = List.range listed.length) :
    inOrder id position rows = listed ∧ IsNumbered id position rows := by
  have hpairwise : listed.Pairwise fun a b => position a < position b := by
    rw [← List.pairwise_map (R := (· < ·)), hlisted]
    exact List.pairwise_lt_range
  have heq : inOrder id position rows = listed := Numbered.inOrder_eq hperm hpairwise
  exact ⟨heq, by rw [IsNumbered, heq, hlisted, hperm.length_eq]⟩

/-- The highest number, plus one. -/
def next (position : ρ → Nat) (rows : List ρ) : Nat :=
  match (rows.map position).max? with
  | none => 0
  | some greatest => greatest + 1

theorem IsNumbered.mem_map (h : IsNumbered id position rows) {n : Nat} :
    n ∈ rows.map position ↔ n < rows.length := by
  have hperm : ((inOrder id position rows).map position).Perm (rows.map position) :=
    (inOrder_perm rows).map position
  rw [← hperm.mem_iff, h, List.mem_range]

/-- The next number is the number of rows. -/
theorem IsNumbered.next_eq (h : IsNumbered id position rows) :
    next position rows = rows.length := by
  unfold next
  split
  · next hnone =>
    rw [List.max?_eq_none_iff, List.map_eq_nil_iff] at hnone
    rw [hnone]
    rfl
  · next greatest hgreatest =>
    rw [List.max?_eq_some_iff] at hgreatest
    have hlt := h.mem_map.1 hgreatest.1
    have hlast := hgreatest.2 (rows.length - 1) (h.mem_map.2 (by omega))
    omega

/-- A row with the next number comes last. -/
theorem IsNumbered.append (h : IsNumbered id position rows)
    (hrow : position row = rows.length) :
    inOrder id position (rows ++ [row]) = inOrder id position rows ++ [row]
      ∧ IsNumbered id position (rows ++ [row]) := by
  refine isNumbered_of_listed ((inOrder_perm rows).symm.append_right _) ?_
  rw [List.map_append, h, List.map_singleton, hrow, List.length_append, length_inOrder,
    List.length_singleton, List.range_succ]

/-! ## Writing the numbers -/

section Writing

variable (mine : ρ → Bool) (id) (write : Nat → ρ → ρ)

/-- The number `n` for the row with the id `i`. -/
def writeOne (i : ι) (n : Nat) (row : ρ) : ρ := if mine row ∧ id row = i then write n row else row

/-- The numbers from `start` on for the rows with the ids, one row after the other. -/
def writeFrom : List ι → Nat → List ρ → List ρ
  | [], _, rows => rows
  | i :: ids, start, rows => writeFrom ids (start + 1) (rows.map (writeOne id mine write i start))

variable {mine id write} {ids : List ι} {start : Nat}

theorem writeOne_spec (hid : ∀ n row, id (write n row) = id row)
    (hmine : ∀ n row, mine (write n row) = mine row) (i : ι) (n : Nat) (row : ρ) :
    id (writeOne id mine write i n row) = id row
      ∧ mine (writeOne id mine write i n row) = mine row := by
  unfold writeOne
  split
  · exact ⟨hid n row, hmine n row⟩
  · exact ⟨rfl, rfl⟩

/-- What the writing makes of one row. -/
def written (id : ρ → ι) (mine : ρ → Bool) (write : Nat → ρ → ρ) : List ι → Nat → ρ → ρ
  | [], _, row => row
  | i :: ids, start, row => written id mine write ids (start + 1) (writeOne id mine write i start row)

theorem writeFrom_eq : writeFrom id mine write ids start rows
    = rows.map (written id mine write ids start) := by
  induction ids generalizing start rows with
  | nil => exact (List.map_id' rows).symm
  | cons i ids ih =>
    rw [writeFrom, ih, List.map_map]
    rfl

/-- What the writing of a number keeps, the whole writing keeps. -/
theorem map_writeFrom {β : Type} {read : ρ → β} (hread : ∀ n row, read (write n row) = read row) :
    (writeFrom id mine write ids start rows).map read = rows.map read := by
  induction ids generalizing start rows with
  | nil => rfl
  | cons i ids ih =>
    rw [writeFrom, ih, List.map_map]
    refine List.map_congr_left fun row _ => ?_
    simp only [Function.comp_apply, writeOne]
    split
    · exact hread start row
    · rfl

theorem written_spec (hid : ∀ n row, id (write n row) = id row)
    (hmine : ∀ n row, mine (write n row) = mine row) (row : ρ) :
    id (written id mine write ids start row) = id row
      ∧ mine (written id mine write ids start row) = mine row := by
  induction ids generalizing start row with
  | nil => exact ⟨rfl, rfl⟩
  | cons i ids ih =>
    obtain ⟨hone, hone'⟩ := writeOne_spec hid hmine i start row
    obtain ⟨hrest, hrest'⟩ := @ih (start + 1) (writeOne id mine write i start row)
    exact ⟨hrest.trans hone, hrest'.trans hone'⟩

/-- A row that is not asked for stays as it is. -/
theorem written_eq_self (hrow : ¬(mine row = true ∧ id row ∈ ids)) :
    written id mine write ids start row = row := by
  induction ids generalizing start with
  | nil => rfl
  | cons i ids ih =>
    have hone : writeOne id mine write i start row = row :=
      if_neg fun h => hrow ⟨h.1, List.mem_cons.2 (.inl h.2)⟩
    rw [written, hone]
    exact ih fun h => hrow ⟨h.1, List.mem_cons_of_mem _ h.2⟩

/-- A row gets the place of its id as its number. -/
theorem position_written (hid : ∀ n row, id (write n row) = id row)
    (hposition : ∀ n row, position (write n row) = n) (hids : ids.Nodup)
    (hrow : mine row = true) (hmem : id row ∈ ids) :
    position (written id mine write ids start row) = start + ids.idxOf (id row) := by
  induction ids generalizing start with
  | nil => cases hmem
  | cons i ids ih =>
    obtain ⟨hi, hids⟩ := List.nodup_cons.1 hids
    rw [written]
    by_cases h : id row = i
    · have hone : writeOne id mine write i start row = write start row := if_pos ⟨hrow, h⟩
      have hrest : ¬(mine (write start row) = true ∧ id (write start row) ∈ ids) := by
        rw [hid, h]
        exact fun hrest => hi hrest.2
      rw [hone, written_eq_self hrest, hposition, h, List.idxOf_cons_self, Nat.add_zero]
    · have hone : writeOne id mine write i start row = row := if_neg fun hone => h hone.2
      rw [hone, ih hids ((List.mem_cons.1 hmem).resolve_left h),
        List.idxOf_cons_ne _ (Ne.symm h)]
      omega

/-- In a list without repetitions the places grow. -/
theorem pairwise_idxOf (hids : ids.Nodup) :
    ids.Pairwise fun a b => ids.idxOf a ≤ ids.idxOf b := by
  rw [List.pairwise_iff_getElem]
  intro i j hi hj hij
  rw [hids.idxOf_getElem, hids.idxOf_getElem]
  exact hij.le

theorem map_idxOf (hids : ids.Nodup) : ids.map ids.idxOf = List.range ids.length := by
  refine List.ext_getElem (by simp) fun n hn hn' => ?_
  rw [List.getElem_map, hids.idxOf_getElem, List.getElem_range]

/-- **The numbers put the rows in the order of the ids.** -/
theorem inOrder_writeFrom (hid : ∀ n row, id (write n row) = id row)
    (hmine : ∀ n row, mine (write n row) = mine row)
    (hposition : ∀ n row, position (write n row) = n) (hids : ids.Nodup)
    (hperm : ids.Perm ((rows.filter mine).map id)) :
    (inOrder id position ((writeFrom id mine write ids 0 rows).filter mine)).map id = ids
      ∧ IsNumbered id position ((writeFrom id mine write ids 0 rows).filter mine) := by
  obtain ⟨after, hafter⟩ : ∃ after, after = (writeFrom id mine write ids 0 rows).filter mine :=
    ⟨_, rfl⟩
  have hown : after = (rows.filter mine).map (written id mine write ids 0) := by
    rw [hafter, writeFrom_eq, List.filter_map]
    refine congrArg _ (List.filter_congr fun row _ => ?_)
    exact (written_spec hid hmine row).2
  have hmapId : after.map id = (rows.filter mine).map id := by
    rw [hown, List.map_map]
    exact List.map_congr_left fun row _ => (written_spec hid hmine row).1
  have hplace : ∀ row ∈ after, id row ∈ ids ∧ position row = ids.idxOf (id row) := by
    intro row hrow
    have hmem : id row ∈ ids := hperm.mem_iff.2 (hmapId ▸ List.mem_map_of_mem hrow)
    rw [hown] at hrow
    obtain ⟨old, hold, rfl⟩ := List.mem_map.1 hrow
    refine ⟨hmem, ?_⟩
    rw [(written_spec hid hmine old).1] at hmem ⊢
    rw [position_written hid hposition hids (List.mem_filter.1 hold).2 hmem, Nat.zero_add]
  rw [← hafter]
  have hlisted : (inOrder id position after).map id = ids := by
    refine @List.Perm.eq_of_pairwise _ (fun a b => ids.idxOf a ≤ ids.idxOf b) _ _ ?_ ?_
      (pairwise_idxOf hids) (((inOrder_perm after).map id).trans (hmapId ▸ hperm.symm))
    · intro a b _ hb hab hba
      exact ((List.idxOf_inj hb).1 (Nat.le_antisymm hba hab)).symm
    · rw [List.pairwise_map]
      refine (inOrder_pairwise after).imp_of_mem fun ha hb hab => ?_
      rw [← (hplace _ (mem_inOrder.1 ha)).2, ← (hplace _ (mem_inOrder.1 hb)).2]
      unfold Before at hab
      omega
  refine ⟨hlisted, ?_⟩
  have hpositions : (inOrder id position after).map position
      = ((inOrder id position after).map id).map ids.idxOf := by
    rw [List.map_map]
    exact List.map_congr_left fun row hrow => (hplace row (mem_inOrder.1 hrow)).2
  rw [IsNumbered, hpositions, hlisted, map_idxOf hids, ← hlisted, List.length_map, length_inOrder]

/-- The rows of others stay as they are. -/
theorem filter_writeFrom {other : ρ → Bool} (hdisjoint : ∀ row, other row = true → mine row = false)
    (hother : ∀ n row, other (write n row) = other row) :
    (writeFrom id mine write ids start rows).filter other = rows.filter other := by
  have hkeeps : ∀ row, other (written id mine write ids start row) = other row
      ∧ (other row = true → written id mine write ids start row = row) := by
    intro row
    by_cases hrow : mine row = true
    · refine ⟨?_, fun h => absurd (hdisjoint row h) (by simp [hrow])⟩
      clear hrow
      induction ids generalizing start row with
      | nil => rfl
      | cons i ids ih =>
        refine (ih _).trans ?_
        unfold writeOne
        split
        · exact hother start row
        · rfl
    · have hself : written id mine write ids start row = row := written_eq_self fun h => hrow h.1
      exact ⟨by rw [hself], fun _ => hself⟩
  have hfilter : rows.filter (other ∘ written id mine write ids start) = rows.filter other :=
    List.filter_congr fun row _ => (hkeeps row).1
  rw [writeFrom_eq, List.filter_map, hfilter]
  refine (List.map_congr_left fun row hrow => ?_).trans (List.map_id' _)
  exact (hkeeps row).2 (List.mem_filter.1 hrow).2

end Writing

end Numbered
