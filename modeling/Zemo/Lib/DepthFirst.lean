import Mathlib.Data.Fintype.Card

set_option autoImplicit false

/-! # Depth-first search for a cycle

A node that is met again while it is being visited is on a cycle; a node that was visited before is
not visited again. The search ends, since every visit that goes on to the children of its node is of
one more node. -/

namespace DepthFirst

variable {V : Type} [DecidableEq V] {next : V → List V}

/-! ## Marks -/

/-- The nodes on the way to the one that is visited, and all that were ever visited. -/
structure Marks (V : Type) where
  visiting : Finset V
  visited : Finset V

namespace Marks

variable {marks after : Marks V} {node : V}

def enter (marks : Marks V) (node : V) : Marks V where
  visiting := insert node marks.visiting
  visited := insert node marks.visited

def leave (marks : Marks V) (node : V) : Marks V :=
  { marks with visiting := marks.visiting.erase node }

/-- The nodes whose visit is over. -/
def done (marks : Marks V) : Finset V := marks.visited \ marks.visiting

end Marks

/-! ## Marks of a part that has no cycle -/

/-- The edge relation of a graph. -/
def Edge (next : V → List V) (node child : V) : Prop := child ∈ next node

/-- The nodes that are done lead to nodes that are done, and none of them is on a cycle. -/
structure Settled (next : V → List V) (marks : Marks V) : Prop where
  visited : marks.visiting ⊆ marks.visited
  closed : ∀ node ∈ marks.done, ∀ child ∈ next node, child ∈ marks.done
  acyclic : ∀ node ∈ marks.done, ¬Relation.TransGen (Edge next) node node

namespace Settled

variable {marks : Marks V} {node : V}

theorem start : Settled next ⟨∅, ∅⟩ where
  visited := Finset.Subset.refl _
  closed node h := by simp [Marks.done] at h
  acyclic node h := by simp [Marks.done] at h

/-- What a node that is done leads to is done. -/
theorem reaches (h : Settled next marks) {other : V} (hnode : node ∈ marks.done)
    (hreach : Relation.TransGen (Edge next) node other) : other ∈ marks.done := by
  induction hreach with
  | single hedge => exact h.closed node hnode _ hedge
  | tail _ hedge ih => exact h.closed _ ih _ hedge

theorem enter (h : Settled next marks) (hnode : node ∉ marks.visited) :
    Settled next (marks.enter node) := by
  have hdone : (marks.enter node).done = marks.done := by
    ext other
    simp only [Marks.done, Marks.enter, Finset.mem_sdiff, Finset.mem_insert, not_or]
    constructor
    · rintro ⟨rfl | hother, hne, hnot⟩
      · exact absurd rfl hne
      · exact ⟨hother, hnot⟩
    · rintro ⟨hother, hnot⟩
      exact ⟨.inr hother, fun heq => hnode (heq ▸ hother), hnot⟩
  refine ⟨Finset.insert_subset_insert _ h.visited, ?_, ?_⟩
  · rw [hdone]
    exact h.closed
  · rw [hdone]
    exact h.acyclic

/-- A node whose children are done can be left. -/
theorem leave (h : Settled next marks) (hnode : node ∈ marks.visiting)
    (hchildren : ∀ child ∈ next node, child ∈ marks.done) :
    Settled next (marks.leave node) ∧ node ∈ (marks.leave node).done := by
  have hmem (other : V) : other ∈ (marks.leave node).done ↔ other = node ∨ other ∈ marks.done := by
    simp only [Marks.done, Marks.leave, Finset.mem_sdiff, Finset.mem_erase, not_and_or, not_not]
    constructor
    · rintro ⟨hother, heq | hnot⟩
      · exact .inl heq
      · exact .inr ⟨hother, hnot⟩
    · rintro (rfl | ⟨hother, hnot⟩)
      · exact ⟨h.visited hnode, .inl rfl⟩
      · exact ⟨hother, .inr hnot⟩
  have hopen : node ∉ marks.done := fun hdone => (Finset.mem_sdiff.1 hdone).2 hnode
  refine ⟨⟨(Finset.erase_subset _ _).trans h.visited, ?_, ?_⟩, (hmem node).2 (.inl rfl)⟩
  · intro other hother child hchild
    rcases (hmem other).1 hother with rfl | hdone
    · exact (hmem child).2 (.inr (hchildren child hchild))
    · exact (hmem child).2 (.inr (h.closed other hdone child hchild))
  · intro other hother hcycle
    rcases (hmem other).1 hother with rfl | hdone
    · -- the cycle goes through a child, which leads to done nodes only
      obtain ⟨child, hedge, hreach⟩ := Relation.TransGen.head'_iff.1 hcycle
      rcases Relation.reflTransGen_iff_eq_or_transGen.1 hreach with rfl | hreach
      · exact hopen (hchildren _ hedge)
      · exact hopen (h.reaches (hchildren child hedge) hreach)
    · exact h.acyclic other hdone hcycle

end Settled

/-! ## The search -/

/-- The marks after a part of the search: none of the visited nodes is forgotten. -/
abbrev After (marks : Marks V) := { after : Marks V // marks.visited ⊆ after.visited }

/-- What was done stays done. -/
theorem done_subset {marks : Marks V} {after : After marks}
    (h : after.1.visiting = marks.visiting) : marks.done ⊆ after.1.done := by
  rw [Marks.done, Marks.done, h]
  exact Finset.sdiff_subset_sdiff after.2 (Finset.Subset.refl _)

theorem card_enter_lt [Fintype V] {marks : Marks V} {node : V} (h : node ∉ marks.visited) :
    (marks.enter node).visitedᶜ.card < marks.visitedᶜ.card := by
  refine Finset.card_lt_card (Finset.compl_ssubset_compl.2 ?_)
  exact Finset.ssubset_insert h

mutual

/-- The visit of a node; nothing when it finds a cycle. -/
def visit [Fintype V] (next : V → List V) (marks : Marks V) (node : V) :
    Option (After marks) :=
  if node ∈ marks.visiting then none
  else if _hvisited : node ∈ marks.visited then some ⟨marks, Finset.Subset.refl _⟩
  else
    match visitAll next (marks.enter node) (next node) with
    | none => none
    | some after => some ⟨after.1.leave node, (Finset.subset_insert _ _).trans after.2⟩
termination_by (marks.visitedᶜ.card, 0)
decreasing_by exact Prod.Lex.left _ _ (card_enter_lt _hvisited)

/-- The visits of some nodes, one after the other. -/
def visitAll [Fintype V] (next : V → List V) (marks : Marks V) (nodes : List V) :
    Option (After marks) :=
  match nodes with
  | [] => some ⟨marks, Finset.Subset.refl _⟩
  | node :: rest =>
      match visit next marks node with
      | none => none
      | some after =>
          match visitAll next after.1 rest with
          | none => none
          | some last => some ⟨last.1, after.2.trans last.2⟩
termination_by (marks.visitedᶜ.card, nodes.length + 1)
decreasing_by
  · exact Prod.Lex.right _ (Nat.succ_pos _)
  · refine Prod.Lex.right' _ (Finset.card_le_card (Finset.compl_subset_compl.2 after.2)) ?_
    exact Nat.lt_succ_self _

end

/-! ## What a visit leaves -/

variable [Fintype V]

mutual

/-- A visit leaves the way to its node as it was. -/
theorem visit_visiting {marks : Marks V} {node : V} {after : After marks}
    (h : visit next marks node = some after) : after.1.visiting = marks.visiting := by
  rw [visit] at h
  split_ifs at h with hvisiting hvisited
  · cases h
    rfl
  · split at h
    · cases h
    · rename_i last hlast
      cases h
      change last.1.visiting.erase node = marks.visiting
      rw [visitAll_visiting hlast]
      exact Finset.erase_insert hvisiting
termination_by (marks.visitedᶜ.card, 0)
decreasing_by exact Prod.Lex.left _ _ (card_enter_lt hvisited)

theorem visitAll_visiting {marks : Marks V} {nodes : List V} {after : After marks}
    (h : visitAll next marks nodes = some after) : after.1.visiting = marks.visiting := by
  cases hnodes : nodes with
  | nil =>
    rw [hnodes, visitAll] at h
    cases h
    rfl
  | cons node rest =>
    have hlength : rest.length + 1 < nodes.length + 1 := by simp [hnodes]
    rw [hnodes, visitAll] at h
    split at h
    · cases h
    · rename_i first hfirst
      have hfewer := Finset.card_le_card (Finset.compl_subset_compl.2 first.2)
      split at h
      · cases h
      · rename_i last hlast
        cases h
        exact (visitAll_visiting hlast).trans (visit_visiting hfirst)
termination_by (marks.visitedᶜ.card, nodes.length + 1)
decreasing_by
  · exact Prod.Lex.right' _ hfewer hlength
  · exact Prod.Lex.right _ (Nat.succ_pos _)

end

mutual

/-- After a visit that finds no cycle its node is done. -/
theorem visit_settled {marks : Marks V} {node : V} {after : After marks}
    (h : visit next marks node = some after) (hsettled : Settled next marks) :
    Settled next after.1 ∧ node ∈ after.1.done := by
  rw [visit] at h
  split_ifs at h with hvisiting hvisited
  · cases h
    exact ⟨hsettled, Finset.mem_sdiff.2 ⟨hvisited, hvisiting⟩⟩
  · split at h
    · cases h
    · rename_i last hlast
      cases h
      obtain ⟨hlastSettled, hdone⟩ := visitAll_settled hlast (hsettled.enter hvisited)
      refine hlastSettled.leave ?_ hdone
      rw [visitAll_visiting hlast]
      exact Finset.mem_insert_self _ _
termination_by (marks.visitedᶜ.card, 0)
decreasing_by exact Prod.Lex.left _ _ (card_enter_lt hvisited)

theorem visitAll_settled {marks : Marks V} {nodes : List V} {after : After marks}
    (h : visitAll next marks nodes = some after) (hsettled : Settled next marks) :
    Settled next after.1 ∧ ∀ node ∈ nodes, node ∈ after.1.done := by
  cases hnodes : nodes with
  | nil =>
    rw [hnodes, visitAll] at h
    cases h
    exact ⟨hsettled, fun node hnode => (nomatch hnode)⟩
  | cons node rest =>
    have hlength : rest.length + 1 < nodes.length + 1 := by simp [hnodes]
    rw [hnodes, visitAll] at h
    split at h
    · cases h
    · rename_i first hfirst
      have hfewer := Finset.card_le_card (Finset.compl_subset_compl.2 first.2)
      split at h
      · cases h
      · rename_i last hlast
        cases h
        obtain ⟨hfirstSettled, hnode⟩ := visit_settled hfirst hsettled
        obtain ⟨hlastSettled, hrest⟩ := visitAll_settled hlast hfirstSettled
        refine ⟨hlastSettled, fun other hother => ?_⟩
        rcases List.mem_cons.1 hother with rfl | hother
        · exact done_subset (visitAll_visiting hlast) hnode
        · exact hrest other hother
termination_by (marks.visitedᶜ.card, nodes.length + 1)
decreasing_by
  · exact Prod.Lex.right _ (Nat.succ_pos _)
  · exact Prod.Lex.right' _ hfewer hlength

end

/-! ## Where a cycle is found -/

mutual

/-- A visit whose node is reached from all that are being visited finds real cycles only. -/
theorem visit_none {marks : Marks V} {node : V} (h : visit next marks node = none)
    (hway : ∀ other ∈ marks.visiting, Relation.TransGen (Edge next) other node) :
    ∃ other, Relation.TransGen (Edge next) other other := by
  rw [visit] at h
  split_ifs at h with hvisiting hvisited
  · exact ⟨node, hway node hvisiting⟩
  · split at h
    · rename_i hall
      refine visitAll_none hall fun child hchild other hother => ?_
      rcases Finset.mem_insert.1 hother with rfl | hother
      · exact .single hchild
      · exact (hway other hother).tail hchild
    · cases h
termination_by (marks.visitedᶜ.card, 0)
decreasing_by exact Prod.Lex.left _ _ (card_enter_lt hvisited)

theorem visitAll_none {marks : Marks V} {nodes : List V} (h : visitAll next marks nodes = none)
    (hway : ∀ node ∈ nodes, ∀ other ∈ marks.visiting,
      Relation.TransGen (Edge next) other node) :
    ∃ other, Relation.TransGen (Edge next) other other := by
  cases hnodes : nodes with
  | nil =>
    rw [hnodes, visitAll] at h
    cases h
  | cons node rest =>
    have hlength : rest.length + 1 < nodes.length + 1 := by simp [hnodes]
    rw [hnodes, visitAll] at h
    split at h
    · rename_i hfirst
      exact visit_none hfirst (hway node (hnodes ▸ List.mem_cons_self))
    · rename_i first hfirst
      have hfewer := Finset.card_le_card (Finset.compl_subset_compl.2 first.2)
      split at h
      · rename_i hlast
        refine visitAll_none hlast fun other hother => ?_
        rw [visit_visiting hfirst]
        exact hway other (hnodes ▸ List.mem_cons_of_mem _ hother)
      · cases h
termination_by (marks.visitedᶜ.card, nodes.length + 1)
decreasing_by
  · exact Prod.Lex.right _ (Nat.succ_pos _)
  · exact Prod.Lex.right' _ hfewer hlength

end

/-- **The search over all nodes, in whatever order, ends without a cycle exactly if there is
none.** -/
theorem visitAll_isSome_iff {nodes : List V} (h : ∀ node, node ∈ nodes) :
    (visitAll next ⟨∅, ∅⟩ nodes).isSome ↔ ∀ node, ¬Relation.TransGen (Edge next) node node := by
  constructor
  · intro hsome node
    obtain ⟨after, hafter⟩ := Option.isSome_iff_exists.1 hsome
    obtain ⟨hsettled, hdone⟩ := visitAll_settled hafter .start
    exact hsettled.acyclic node (hdone node (h node))
  · intro hnone
    rw [Option.isSome_iff_ne_none]
    intro hcycle
    obtain ⟨node, hnode⟩ := visitAll_none hcycle fun _ _ other hother =>
      absurd hother (Finset.notMem_empty other)
    exact hnone node hnode

end DepthFirst
