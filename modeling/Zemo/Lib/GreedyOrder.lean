import Mathlib.Data.List.Perm.Basic
import Mathlib.Data.List.Nodup

set_option autoImplicit false

/-! # Greedy dependency order

Items with keys depend on keys of other items. The greedy order takes, again and again, the best of
the items none of whose dependencies remains. The items that are left when none is ready depend on
each other in cycles. -/

namespace GreedyOrder

variable {α κ : Type} [DecidableEq α] [DecidableEq κ]

/-- The items: their keys, what they depend on, and which of two goes first. -/
structure Rules (α κ : Type) where
  key : α → κ
  deps : α → List κ
  before : α → α → Bool

variable (rules : Rules α κ)

/-- The first of the items that no other goes before. -/
def best : List α → Option α
  | [] => none
  | a :: rest => some (rest.foldl (fun m b => if rules.before b m then b else m) a)

/-- Nothing the item depends on remains. -/
def ready (remaining : List α) (a : α) : Bool :=
  (rules.deps a).all fun d => decide (d ∉ remaining.map rules.key)

/-- At most `fuel` steps of the order: the items taken, in order, and those that are left. -/
def orderFor : ℕ → List α → List α × List α
  | 0, remaining => ([], remaining)
  | fuel + 1, remaining =>
      match best rules (remaining.filter (ready rules remaining)) with
      | none => ([], remaining)
      | some a =>
          let r := orderFor fuel (remaining.erase a)
          (a :: r.1, r.2)

/-- The greedy order: every step takes an item, so as many steps as items are enough. -/
def order (items : List α) : List α × List α := orderFor rules items.length items

variable {rules}

omit [DecidableEq α] [DecidableEq κ] in
theorem best_mem {items : List α} {a : α} (h : best rules items = some a) : a ∈ items := by
  have fold_mem : ∀ (rest : List α) (m : α),
      rest.foldl (fun m b => if rules.before b m then b else m) m ∈ m :: rest := by
    intro rest
    induction rest with
    | nil => simp
    | cons b rest ih =>
        intro m
        rw [List.foldl_cons]
        split
        · exact List.mem_cons_of_mem _ (ih b)
        · rcases List.mem_cons.1 (ih m) with h | h
          · rw [h]
            exact List.mem_cons_self ..
          · exact List.mem_cons_of_mem _ (List.mem_cons_of_mem _ h)
  cases items with
  | nil => cases h
  | cons b rest =>
      cases h
      exact fold_mem rest b

omit [DecidableEq α] in
theorem ready_iff {remaining : List α} {a : α} :
    ready rules remaining a = true ↔ ∀ d ∈ rules.deps a, d ∉ remaining.map rules.key := by
  simp only [ready, List.all_eq_true, decide_eq_true_eq]

omit [DecidableEq α] in
/-- What a step that takes an item takes. -/
theorem taken_ready {remaining : List α} {a : α}
    (h : best rules (remaining.filter (ready rules remaining)) = some a) :
    a ∈ remaining ∧ ∀ d ∈ rules.deps a, d ∉ remaining.map rules.key := by
  obtain ⟨hmem, hready⟩ := List.mem_filter.1 (best_mem h)
  exact ⟨hmem, ready_iff.1 hready⟩

theorem orderFor_perm (fuel : ℕ) (items : List α) :
    ((orderFor rules fuel items).1 ++ (orderFor rules fuel items).2).Perm items := by
  induction fuel generalizing items with
  | zero => exact List.Perm.refl _
  | succ fuel ih =>
      rw [orderFor]
      split
      · exact List.Perm.refl _
      · rename_i a ha
        exact ((ih (items.erase a)).cons a).trans
          (List.perm_cons_erase (taken_ready ha).1).symm

/-- The order loses no item and adds none. -/
theorem order_perm (items : List α) :
    ((order rules items).1 ++ (order rules items).2).Perm items := orderFor_perm _ items

/-! ## Orders that respect the dependencies -/

section InOrder

variable {β : Type} {key : β → κ} {deps : β → List κ} {done more : List κ} {as bs : List β}

/-- Every item waits only for items before it, and for keys in `done`. -/
def InOrder (key : β → κ) (deps : β → List κ) : List κ → List β → Prop
  | _, [] => True
  | done, a :: rest => (∀ d ∈ deps a, d ∈ done) ∧ InOrder key deps (key a :: done) rest

omit [DecidableEq κ] in
theorem InOrder.mono (h : InOrder key deps done as) (hsub : done ⊆ more) :
    InOrder key deps more as := by
  induction as generalizing done more with
  | nil => trivial
  | cons a rest ih =>
      obtain ⟨ha, hrest⟩ := h
      exact ⟨fun d hd => hsub (ha d hd), ih hrest (List.cons_subset_cons _ hsub)⟩

omit [DecidableEq κ] in
theorem InOrder.append (ha : InOrder key deps done as)
    (hb : InOrder key deps (as.map key ++ done) bs) : InOrder key deps done (as ++ bs) := by
  induction as generalizing done with
  | nil => exact hb
  | cons a rest ih =>
      obtain ⟨ha, hrest⟩ := ha
      refine ⟨ha, ih hrest (hb.mono ?_)⟩
      intro d hd
      simp only [List.map_cons, List.cons_append, List.mem_cons, List.mem_append] at hd ⊢
      tauto

omit [DecidableEq κ] in
/-- Items that wait for settled keys only may stand in any order. -/
theorem InOrder.of_settled (h : ∀ a ∈ as, ∀ d ∈ deps a, d ∈ done) : InOrder key deps done as := by
  induction as generalizing done with
  | nil => trivial
  | cons a rest ih =>
      refine ⟨h a (List.mem_cons_self ..), ih fun b hb d hd => ?_⟩
      exact List.mem_cons_of_mem _ (h b (List.mem_cons_of_mem _ hb) d hd)

omit [DecidableEq κ] in
/-- What an item waits for stands before it. -/
theorem InOrder.before {b : β} (h : InOrder key deps done (as ++ b :: bs)) {d : κ}
    (hd : d ∈ deps b) : d ∈ done ∨ ∃ a ∈ as, key a = d := by
  induction as generalizing done with
  | nil => exact .inl (h.1 d hd)
  | cons a rest ih =>
      rcases ih h.2 with hdone | ⟨c, hc, hkey⟩
      · rcases List.mem_cons.1 hdone with rfl | hdone
        · exact .inr ⟨a, List.mem_cons_self .., rfl⟩
        · exact .inl hdone
      · exact .inr ⟨c, List.mem_cons_of_mem _ hc, hkey⟩

theorem orderFor_inOrder (fuel : ℕ) {items : List α}
    (h : ∀ a ∈ items, ∀ d ∈ rules.deps a, d ∈ done ∨ d ∈ items.map rules.key) :
    InOrder rules.key rules.deps done (orderFor rules fuel items).1 := by
  induction fuel generalizing items done with
  | zero => trivial
  | succ fuel ih =>
      rw [orderFor]
      split
      · trivial
      · rename_i a ha
        obtain ⟨hmem, hready⟩ := taken_ready ha
        refine ⟨fun d hd => (h a hmem d hd).resolve_right (hready d hd), ih fun b hb d hd => ?_⟩
        rcases h b (List.mem_of_mem_erase hb) d hd with hdone | hremains
        · exact .inl (List.mem_cons_of_mem _ hdone)
        · obtain ⟨c, hc, rfl⟩ := List.mem_map.1 hremains
          by_cases heq : c = a
          · exact .inl (heq ▸ List.mem_cons_self ..)
          · exact .inr (List.mem_map_of_mem ((List.mem_erase_of_ne heq).2 hc))

/-- The greedy order respects dependencies that are among the items. -/
theorem order_inOrder {items : List α}
    (h : ∀ a ∈ items, ∀ d ∈ rules.deps a, d ∈ items.map rules.key) :
    InOrder rules.key rules.deps [] (order rules items).1 :=
  orderFor_inOrder _ fun a ha d hd => .inr (h a ha d hd)

end InOrder

end GreedyOrder
