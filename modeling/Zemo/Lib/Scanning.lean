import Mathlib.Data.List.Basic

set_option autoImplicit false

/-! # Scans with one element of its kind

A scan folds a step over the first elements of a list. Where only one element, or one kind of
element, touches what is looked at, the scan is up to whether it comes to it. -/

namespace Scanning

variable {ε σ τ : Type} {step : σ → ε → σ}

/-- Others leave what is looked at as it is. -/
theorem foldl_others {others : ε → Prop} {look : σ → τ} {elements : List ε}
    (hskip : ∀ x, others x → ∀ s, look (step s x) = look s) (hothers : ∀ x ∈ elements, others x)
    (s : σ) : look (elements.foldl step s) = look s := by
  induction elements generalizing s with
  | nil => rfl
  | cons e rest ih =>
    rw [List.forall_mem_cons] at hothers
    rw [List.foldl_cons, ih hothers.2, hskip e hothers.1]

/-- What a scan over the first elements makes of what is looked at is up to the one element, if the
scan comes to it. -/
theorem foldl_split {others : ε → Prop} {before after scanned : List ε} {e : ε}
    (hscanned : scanned <+: before ++ e :: after) (hothers : ∀ x ∈ before ++ after, others x)
    {look : σ → τ} {apply : τ → τ} (hskip : ∀ x, others x → ∀ s, look (step s x) = look s)
    (happly : ∀ s, look (step s e) = apply (look s)) (s : σ) :
    look (scanned.foldl step s) =
      if before.length < scanned.length then apply (look s) else look s := by
  rw [List.forall_mem_append] at hothers
  by_cases hlength : before.length < scanned.length
  · -- the scan goes through all before the element, the element and some after it
    obtain ⟨next, rfl⟩ : before <+: scanned :=
      List.prefix_of_prefix_length_le (List.prefix_append _ _) hscanned (Nat.le_of_lt hlength)
    rw [List.prefix_append_right_inj] at hscanned
    cases next with
    | nil => exact absurd hlength (by simp)
    | cons x next =>
      obtain ⟨rfl, hnext⟩ := List.cons_prefix_cons.1 hscanned
      have hafter : ∀ y ∈ next, others y := fun y hy => hothers.2 y (hnext.subset hy)
      rw [List.foldl_append, List.foldl_cons, foldl_others hskip hafter, happly,
        foldl_others hskip hothers.1, if_pos hlength]
  · have hbefore : scanned <+: before :=
      List.prefix_of_prefix_length_le hscanned (List.prefix_append _ _) (Nat.not_lt.1 hlength)
    rw [foldl_others hskip fun y hy => hothers.1 y (hbefore.subset hy), if_neg hlength]

/-- A scan up to the first that stops it comes to an element when nothing up to it does. -/
theorem takeWhile_reaches {p : ε → Prop} [DecidablePred p] {before after : List ε} {e : ε} :
    before.length < ((before ++ e :: after).takeWhile (fun x => p x)).length ↔
      ∀ x ∈ before ++ [e], p x := by
  induction before with
  | nil =>
    by_cases hp : p e
    · simp [List.takeWhile_cons_of_pos, hp]
    · simp [List.takeWhile_cons_of_neg, hp]
  | cons b rest ih =>
    rw [List.cons_append, List.cons_append, List.forall_mem_cons]
    by_cases hp : p b
    · rw [List.takeWhile_cons_of_pos (by simpa using hp), List.length_cons, List.length_cons,
        Nat.succ_lt_succ_iff, and_iff_right hp]
      exact ih
    · rw [List.takeWhile_cons_of_neg (by simpa using hp)]
      exact iff_of_false (Nat.not_lt_zero _) fun h => hp h.1

section Alone

variable {κ : Type} {key : ε → κ} {k : κ} {elements : List ε} {e : ε}

/-- One element with a key among the elements. -/
def Alone (key : ε → κ) (k : κ) (elements : List ε) (e : ε) : Prop :=
  ∃ before after, elements = before ++ e :: after ∧ key e = k ∧ ∀ x ∈ before ++ after, key x ≠ k

theorem Alone.mem (h : Alone key k elements e) : e ∈ elements := by
  obtain ⟨before, after, rfl, -⟩ := h
  exact List.mem_append_right _ List.mem_cons_self

theorem Alone.key_eq (h : Alone key k elements e) : key e = k := by
  obtain ⟨-, -, -, hkey, -⟩ := h
  exact hkey

/-- What a scan over the first elements makes of what is looked at is up to the element with the
key. -/
theorem foldl_alone (halone : Alone key k elements e) {scanned : List ε}
    (hscanned : scanned <+: elements) {look : σ → τ} {apply : τ → τ}
    (hskip : ∀ x, key x ≠ k → ∀ s, look (step s x) = look s)
    (happly : ∀ s, look (step s e) = apply (look s)) (s : σ) :
    (e ∈ scanned → look (scanned.foldl step s) = apply (look s)) ∧
      (e ∉ scanned → look (scanned.foldl step s) = look s) := by
  obtain ⟨before, after, rfl, rfl, hothers⟩ := halone
  have hsplit := foldl_split hscanned hothers hskip happly s
  have hcomes : e ∈ scanned ↔ before.length < scanned.length := by
    constructor
    · intro hmem
      by_contra hlength
      have hbefore : scanned <+: before :=
        List.prefix_of_prefix_length_le hscanned (List.prefix_append _ _) (Nat.not_lt.1 hlength)
      exact hothers e (List.mem_append_left _ (hbefore.subset hmem)) rfl
    · intro hlength
      have hreached : before ++ [e] <+: scanned :=
        List.prefix_of_prefix_length_le ⟨after, by simp⟩ hscanned (by simp; omega)
      exact hreached.subset (List.mem_append_right _ List.mem_cons_self)
  rw [hcomes, hsplit]
  exact ⟨fun h => if_pos h, fun h => if_neg h⟩

end Alone

end Scanning
