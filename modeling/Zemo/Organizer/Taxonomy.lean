import Zemo.Lib.Checked
import Zemo.Lib.DepthFirst

set_option autoImplicit false

/-! # Taxonomies

A taxonomy is a graph of codes. It is built only if its codes are distinct, its edges join codes
that are listed, and a depth-first search from every code, in the order in which the set of codes
happens to be iterated, finds no cycle. -/

namespace Zemo.Organizer

open Checked

structure TaxonomyNode where
  stableCode : String
  label : String
  description : String
  deriving DecidableEq, Repr

structure TaxonomyEdge where
  parentCode : String
  childCode : String
  deriving DecidableEq, Repr

structure TaxonomyVersion where
  id : Nat
  version : Nat
  nodes : List TaxonomyNode
  edges : List TaxonomyEdge
  contentDigest : List UInt8
  deriving DecidableEq, Repr

inductive TaxonomyError where
  | duplicateNode
  | unknownNode
  | cycle
  | serialization (error : String)
  deriving DecidableEq, Repr

/-- What the construction of a taxonomy is given from outside: the order in which a set of codes is
    iterated, the encoder, which never refuses numbers and texts, the digest and the new id. -/
structure TaxonomyContext where
  order : (codes : Finset String) → List codes
  order_complete : ∀ (codes : Finset String) (code : codes), code ∈ order codes
  toVec : Nat → List TaxonomyNode → List TaxonomyEdge → Except String (List UInt8)
  toVec_isOk : ∀ version nodes edges, (toVec version nodes edges).isOk
  hash : List UInt8 → List UInt8
  newId : Nat

/-! ## The search for a cycle -/

/-- Every edge joins two of the codes. -/
def Known (codes : Finset String) (edges : List TaxonomyEdge) : Prop :=
  ∀ edge ∈ edges, edge.parentCode ∈ codes ∧ edge.childCode ∈ codes

instance (codes : Finset String) (edges : List TaxonomyEdge) : Decidable (Known codes edges) :=
  inferInstanceAs (Decidable (∀ edge ∈ edges, edge.parentCode ∈ codes ∧ edge.childCode ∈ codes))

variable {codes : Finset String} {edges : List TaxonomyEdge}

/-- The children of a code, one for each edge, in the order of the edges. -/
def adjacency (hknown : Known codes edges) (node : codes) : List codes :=
  (edges.attach.filter fun edge => edge.1.parentCode = node.1).map fun edge =>
    ⟨edge.1.childCode, (hknown edge.1 edge.2).2⟩

/-- The search from every code; the sets of visited nodes and of those being visited are shared. -/
def ensureAcyclic (ctx : TaxonomyContext) (hknown : Known codes edges) :
    Except TaxonomyError Unit :=
  match DepthFirst.visitAll (adjacency hknown) ⟨∅, ∅⟩ (ctx.order codes) with
  | none => .error .cycle
  | some _ => .ok ()

/-- The edge relation of a taxonomy. -/
def Joins (edges : List TaxonomyEdge) (parent child : String) : Prop :=
  ∃ edge ∈ edges, edge.parentCode = parent ∧ edge.childCode = child

theorem mem_adjacency {hknown : Known codes edges} {node child : codes} :
    child ∈ adjacency hknown node ↔ Joins edges node.1 child.1 := by
  simp only [adjacency, List.mem_map, List.mem_filter, List.mem_attach, true_and,
    decide_eq_true_eq]
  constructor
  · rintro ⟨⟨edge, hedge⟩, hparent, rfl⟩
    exact ⟨edge, hedge, hparent, rfl⟩
  · rintro ⟨edge, hedge, hparent, hchild⟩
    exact ⟨⟨edge, hedge⟩, hparent, Subtype.ext hchild⟩

/-- A way along the edges stays among the codes. -/
theorem transGen_adjacency (hknown : Known codes edges) (node : codes) {other : String}
    (h : Relation.TransGen (Joins edges) node.1 other) :
    ∃ hother : other ∈ codes,
      Relation.TransGen (DepthFirst.Edge (adjacency hknown)) node ⟨other, hother⟩ := by
  have child_mem {parent child : String} (hjoins : Joins edges parent child) : child ∈ codes := by
    obtain ⟨edge, hedge, -, rfl⟩ := hjoins
    exact (hknown edge hedge).2
  induction h with
  | single hjoins => exact ⟨child_mem hjoins, .single (mem_adjacency.2 hjoins)⟩
  | tail _ hjoins ih =>
    obtain ⟨hmiddle, hway⟩ := ih
    exact ⟨child_mem hjoins, hway.tail (mem_adjacency.2 hjoins)⟩

/-- The cycles among the codes are those of the edge relation. -/
theorem acyclic_adjacency_iff (hknown : Known codes edges) :
    (∀ node, ¬Relation.TransGen (DepthFirst.Edge (adjacency hknown)) node node) ↔
      ∀ code, ¬Relation.TransGen (Joins edges) code code := by
  constructor
  · intro hacyclic code hcycle
    obtain ⟨-, ⟨edge, hedge, rfl, -⟩, -⟩ := Relation.TransGen.head'_iff.1 hcycle
    obtain ⟨_, hway⟩ := transGen_adjacency hknown ⟨edge.parentCode, (hknown edge hedge).1⟩ hcycle
    exact hacyclic _ hway
  · intro hacyclic node hcycle
    exact hacyclic node.1 (hcycle.lift Subtype.val fun _ _ hedge => mem_adjacency.1 hedge)

theorem ensureAcyclic_eq_ok_iff (ctx : TaxonomyContext) (hknown : Known codes edges) :
    ensureAcyclic ctx hknown = .ok () ↔ ∀ code, ¬Relation.TransGen (Joins edges) code code := by
  have hsearch : (DepthFirst.visitAll (adjacency hknown) ⟨∅, ∅⟩ (ctx.order codes)).isSome ↔ _ :=
    DepthFirst.visitAll_isSome_iff (ctx.order_complete codes)
  rw [acyclic_adjacency_iff] at hsearch
  rw [← hsearch, ensureAcyclic]
  cases DepthFirst.visitAll (adjacency hknown) ⟨∅, ∅⟩ (ctx.order codes) with
  | none => simp
  | some after => simp

/-! ## Construction -/

def nodeCodes (nodes : List TaxonomyNode) : Finset String :=
  (nodes.map TaxonomyNode.stableCode).toFinset

def TaxonomyVersion.new (ctx : TaxonomyContext) (version : Nat) (nodes : List TaxonomyNode)
    (edges : List TaxonomyEdge) : Except TaxonomyError TaxonomyVersion := do
  require ((nodeCodes nodes).card = nodes.length) .duplicateNode
  if hknown : Known (nodeCodes nodes) edges then
    ensureAcyclic ctx hknown
    match ctx.toVec version nodes edges with
    | .error error => .error (.serialization error)
    | .ok encoded =>
      .ok { id := ctx.newId, version, nodes, edges, contentDigest := ctx.hash encoded }
  else .error .unknownNode

/-- The set of the codes is as large as their list when no code is listed twice. -/
theorem card_nodeCodes_iff {nodes : List TaxonomyNode} :
    (nodeCodes nodes).card = nodes.length ↔ (nodes.map TaxonomyNode.stableCode).Nodup := by
  have hlength : nodes.length = (nodes.map TaxonomyNode.stableCode).length :=
    (List.length_map _).symm
  rw [nodeCodes, hlength, List.card_toFinset]
  exact ⟨fun h => List.dedup_eq_self.1 ((List.dedup_sublist _).eq_of_length h),
    fun h => by rw [List.dedup_eq_self.2 h]⟩

/-- **A taxonomy is built exactly if its codes are distinct, its edges join codes of its nodes and
no way along its edges leads back to where it began.** The order of the search does not matter, and
the search ends on every graph. -/
theorem TaxonomyVersion.new_isOk_iff (ctx : TaxonomyContext) (version : Nat)
    (nodes : List TaxonomyNode) (edges : List TaxonomyEdge) :
    (TaxonomyVersion.new ctx version nodes edges).isOk ↔
      (nodes.map TaxonomyNode.stableCode).Nodup ∧
      (∀ edge ∈ edges, edge.parentCode ∈ nodes.map TaxonomyNode.stableCode ∧
        edge.childCode ∈ nodes.map TaxonomyNode.stableCode) ∧
      ∀ code, ¬Relation.TransGen (Joins edges) code code := by
  have hmem : Known (nodeCodes nodes) edges ↔
      ∀ edge ∈ edges, edge.parentCode ∈ nodes.map TaxonomyNode.stableCode ∧
        edge.childCode ∈ nodes.map TaxonomyNode.stableCode := by
    simp only [Known, nodeCodes, List.mem_toFinset]
  rw [← card_nodeCodes_iff, ← hmem, TaxonomyVersion.new, test_bind_isOk, require_eq_ok]
  refine and_congr_right fun _ => ?_
  by_cases hknown : Known (nodeCodes nodes) edges
  · obtain ⟨encoded, hencoded⟩ := exists_of_isOk (ctx.toVec_isOk version nodes edges)
    rw [dif_pos hknown, test_bind_isOk, ensureAcyclic_eq_ok_iff, hencoded]
    exact ⟨fun h => ⟨hknown, h.1⟩, fun h => ⟨h.2, rfl⟩⟩
  · rw [dif_neg hknown]
    exact ⟨fun h => (nomatch h), fun h => absurd h.1 hknown⟩

end Zemo.Organizer
