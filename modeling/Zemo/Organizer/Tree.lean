import Mathlib.Algebra.Ring.Rat
import Zemo.Organizer.Inputs

set_option autoImplicit false

/-! # What is shown of a proposal

The tree of folders a proposal would leave, its summary, and its difference to the revision
before. -/

namespace Zemo.Organizer

/-! ## The tree -/

/-- A folder of the tree, under its path. -/
structure MutableNode where
  id : Nat
  parentPath : Option String
  kind : VirtualNodeKind
  name : String
  children : List String
  needsReviewCount : Nat
  conflictCount : Nat
deriving DecidableEq

/-- The folders by their paths, and the identifiers drawn so far. -/
structure TreeState where
  nodes : List (String × MutableNode)
  nextId : Nat
  files : List VirtualProposalNode

/-- The folder of a path. -/
def TreeState.node? (tree : TreeState) (path : String) : Option MutableNode :=
  (tree.nodes.find? (·.1 = path)).map (·.2)

/-- Change the folder of a path, if there is one. -/
def TreeState.modify (tree : TreeState) (path : String) (f : MutableNode → MutableNode) :
    TreeState :=
  { tree with
    nodes := tree.nodes.map fun (other, node) => (other, if other = path then f node else node) }

/-- A child is put under a folder once. -/
def MutableNode.withChild (child : String) (node : MutableNode) : MutableNode :=
  { node with children := if child ∈ node.children then node.children else child :: node.children }

/-- An operation is counted at a folder. -/
def MutableNode.counting (operation : OrganizationProposalOperation) (node : MutableNode) :
    MutableNode :=
  { node with
    needsReviewCount := node.needsReviewCount + if operation.needsReview then 1 else 0
    conflictCount := node.conflictCount + if operation.conflictState ≠ .none then 1 else 0 }

/-- The path of a child. -/
def virtualPath (parentPath name : String) : String :=
  if parentPath = "" then name else parentPath ++ "\\" ++ name

/-- Go down into a folder, which is made if it is not there. -/
def enterFolder (operation : OrganizationProposalOperation) (at_ : TreeState × String)
    (segment : String) : TreeState × String :=
  let (tree, parentPath) := at_
  let path := virtualPath parentPath segment
  let tree := if (tree.node? path).isSome then tree
    else
      { tree with
        nodes := tree.nodes ++ [(path,
          { id := tree.nextId
            parentPath := some parentPath
            kind := .folder
            name := segment
            children := []
            needsReviewCount := 0
            conflictCount := 0 })]
        nextId := tree.nextId + 1 }
  (((tree.modify parentPath (·.withChild path)).modify path (·.counting operation)), path)

/-- Put the file of an operation into the tree. -/
def placeOperation (tree : TreeState) (operation : OrganizationProposalOperation) : TreeState :=
  let tree := tree.modify "" (·.counting operation)
  let (tree, parentPath) := operation.proposedDestination.foldl (enterFolder operation) (tree, "")
  let path := virtualPath parentPath operation.proposedName
  let id := tree.nextId
  let tree := tree.modify parentPath (·.withChild path)
  { tree with
    nextId := id + 1
    files := tree.files ++
      [{ id
         parentId := (tree.node? parentPath).map (·.id)
         kind := .file
         name := operation.proposedName
         virtualPath := path
         operationId := some operation.id
         childCount := 0
         needsReviewCount := if operation.needsReview then 1 else 0
         conflictCount := if operation.conflictState ≠ .none then 1 else 0 }] }

/-- The tree of no operation. -/
def emptyTree : TreeState where
  nodes := [("",
    { id := 0
      parentPath := none
      kind := .root
      name := "Organization Preview"
      children := []
      needsReviewCount := 0
      conflictCount := 0 })]
  nextId := 1
  files := []

/-- `build_virtual_tree`. -/
def buildVirtualTree (operations : List OrganizationProposalOperation) :
    List VirtualProposalNode :=
  let tree := operations.foldl placeOperation emptyTree
  (tree.nodes.insertionSort fun left right => left.1 ≤ right.1).map (fun (path, node) =>
    { id := node.id
      parentId := (node.parentPath.bind tree.node?).map (·.id)
      kind := node.kind
      name := node.name
      virtualPath := path
      operationId := none
      childCount := node.children.length
      needsReviewCount := node.needsReviewCount
      conflictCount := node.conflictCount }) ++ tree.files

/-! ## The summary -/

/-- How many operations have a property. -/
def countOperations (operations : List OrganizationProposalOperation)
    (p : OrganizationProposalOperation → Bool) : Nat :=
  (operations.filter p).length

/-- `summarize`. -/
def summarize (operations : List OrganizationProposalOperation) : OrganizationProposalSummary where
  filesAnalyzed := operations.length
  proposedMoves := countOperations operations (·.operationKind = .moveProposal)
  proposedRenames := countOperations operations (·.isRename)
  unchanged := countOperations operations fun operation =>
    operation.operationKind = .keepInPlace || operation.operationKind = .noAction
  needsReview := countOperations operations (·.needsReview)
  unresolved := countOperations operations (·.operationKind = .toReview)
  conflicts := countOperations operations (·.conflictState ≠ .none)
  highConfidence := countOperations operations fun operation =>
    operation.confidenceLevel = .veryHigh || operation.confidenceLevel = .high
  mediumConfidence := countOperations operations (·.confidenceLevel = .medium)
  lowConfidence := countOperations operations (·.confidenceLevel = .low)
  duplicateNoAction := countOperations operations fun operation =>
    operation.duplicateGroupId.isSome && !operation.duplicateCanonical
  averageDepth := if operations = [] then 0
    else ((operations.map (·.proposedDepth)).sum : Rat) / operations.length
  maximumDepth := operations.foldl
    (fun deepest operation => max deepest (min operation.proposedDepth 4294967295)) 0

/-! ## The difference -/

/-- `proposal_diff`. -/
def proposalDiff (previous current : List OrganizationProposalOperation) :
    OrganizationProposalDiff :=
  if previous = [] then { filesAdded := current.length }
  else
    let old := fun operation : OrganizationProposalOperation =>
      (previous.filter fun other => other.fileId = operation.fileId).getLast?
    let number := fun p : OrganizationProposalOperation → OrganizationProposalOperation → Bool =>
      countOperations current fun operation => (old operation).any (p · operation)
    { filesAdded := countOperations current fun operation => (old operation).isNone
      destinationsChanged := number fun before operation =>
        !pathsEqual before.proposedDestination operation.proposedDestination
          || !eqIgnoreAsciiCase before.proposedName operation.proposedName
      conflictsResolved := number fun before operation =>
        before.conflictState ≠ .none && operation.conflictState = .none
      movedToReview := number fun before operation =>
        !before.needsReview && operation.needsReview }

end Zemo.Organizer
