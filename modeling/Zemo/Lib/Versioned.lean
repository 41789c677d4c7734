import Mathlib.Data.List.Infix

set_option autoImplicit false

/-! # Versioned tables

A row of a versioned table is valid until it is closed, and stays in the table then. What is read of
such a table are its current rows; the lemmas here say what closing and inserting does to them. -/

namespace Versioned

/-- A row, and the stamp it was closed with. -/
structure Row (σ α : Type) where
  value : α
  validTo : Option σ := none
deriving DecidableEq

variable {σ α : Type} {p : α → Bool} {conflicts : α → α → Bool} {stamp : σ} {a b : α}
  {table : List (Row σ α)}

/-- The rows that are valid. -/
def current (table : List (Row σ α)) : List α :=
  table.filterMap fun row => if row.validTo.isNone then some row.value else none

/-- Close the current rows that satisfy `p`. -/
def close (p : α → Bool) (stamp : σ) (table : List (Row σ α)) : List (Row σ α) :=
  table.map fun row =>
    if row.validTo.isNone && p row.value then { row with validTo := some stamp } else row

/-- Insert a row, unless a current one is in conflict with it. -/
def insertOrIgnore (conflicts : α → α → Bool) (a : α) (table : List (Row σ α)) : List (Row σ α) :=
  if (current table).any (conflicts a) then table else table ++ [{ value := a }]

@[simp] theorem current_append (rest : List (Row σ α)) :
    current (table ++ rest) = current table ++ current rest :=
  List.filterMap_append

/-- Closing takes the rows away that it selects. -/
@[simp] theorem current_close :
    current (close p stamp table) = (current table).filter fun a => !p a := by
  induction table with
  | nil => rfl
  | cons row table ih =>
      obtain ⟨value, validTo⟩ := row
      cases validTo with
      | some end_ => simpa [current, close] using ih
      | none =>
          by_cases hp : p value = true
          · simpa [current, close, hp] using ih
          · simpa [current, close, hp] using ih

theorem mem_current_close : a ∈ current (close p stamp table) ↔ a ∈ current table ∧ p a = false := by
  rw [current_close, List.mem_filter, Bool.not_eq_true']

theorem pairwise_current_close {R : α → α → Prop} (h : (current table).Pairwise R) :
    (current (close p stamp table)).Pairwise R := by
  rw [current_close]
  exact h.filter _

theorem insertOrIgnore_of_free (h : ∀ b ∈ current table, conflicts a b = false) :
    current (insertOrIgnore conflicts a table) = current table ++ [a] := by
  have hany : ¬((current table).any (conflicts a) = true) := by
    rw [List.any_eq_true]
    rintro ⟨b, hb, hc⟩
    rw [h b hb] at hc
    cases hc
  rw [insertOrIgnore, if_neg hany, current_append]
  rfl

/-- The current rows after an insertion are those before, and perhaps the one inserted. -/
theorem mem_current_insertOrIgnore (h : b ∈ current (insertOrIgnore conflicts a table)) :
    b ∈ current table ∨ b = a := by
  unfold insertOrIgnore at h
  split at h
  · exact .inl h
  · rw [current_append] at h
    rcases List.mem_append.1 h with h | h
    · exact .inl h
    · exact .inr (List.mem_singleton.1 h)

theorem current_subset_insertOrIgnore (h : b ∈ current table) :
    b ∈ current (insertOrIgnore conflicts a table) := by
  unfold insertOrIgnore
  split
  · exact h
  · rw [current_append]
    exact List.mem_append_left _ h

/-- A relation between the current rows that the conflicts guard. -/
theorem pairwise_insertOrIgnore {R : α → α → Prop} (h : (current table).Pairwise R)
    (hR : ∀ b ∈ current table, conflicts a b = false → R b a) :
    (current (insertOrIgnore conflicts a table)).Pairwise R := by
  by_cases hany : (current table).any (conflicts a) = true
  · rwa [insertOrIgnore, if_pos hany]
  · have hfree : ∀ b ∈ current table, conflicts a b = false := fun b hb =>
      Bool.eq_false_iff.2 fun hc => hany (List.any_eq_true.2 ⟨b, hb, hc⟩)
    rw [insertOrIgnore_of_free hfree]
    refine List.pairwise_append.2 ⟨h, List.pairwise_singleton .., ?_⟩
    intro b hb c hc
    obtain rfl := List.mem_singleton.1 hc
    exact hR b hb (hfree b hb)

end Versioned
