/-!
# Trees

A tree keeps what a program says in the order in which it is written: leaves
hold spellings, and groups hold their parts.  The type also allows a label on a
node with children, and a node with neither, and every measure is defined for
those too.
-/

namespace ConditionalAssignment

/-- An ordered tree whose nodes may be labelled. -/
inductive Tree where
  /-- A node with its label, if any, and its children. -/
  | node (label : Option String) (children : List Tree)

namespace Tree

/-- The label of a node. -/
def label : Tree → Option String
  | .node label _ => label

/-- The children of a node. -/
def children : Tree → List Tree
  | .node _ children => children

/-- A labelled node without children. -/
def leaf (spelling : String) : Tree :=
  .node (some spelling) []

/-- A node without a label. -/
def group (children : List Tree) : Tree :=
  .node none children

/-- The node is labelled and has no children. -/
def isLeaf : Tree → Bool
  | .node (some _) [] => true
  | _ => false

/-- The labels of the childless nodes from left to right. -/
def leaves : Tree → List String
  | .node label children =>
      if children.isEmpty then label.toList else children.flatMap leaves

@[simp] theorem leaves_leaf (spelling : String) :
    (leaf spelling).leaves = [spelling] := by
  rw [leaf, leaves]
  rfl

@[simp] theorem leaves_group (children : List Tree) :
    (group children).leaves = children.flatMap leaves := by
  rw [group, leaves]
  cases children <;> rfl

/-- The number of nodes. -/
def size : Tree → Nat
  | .node _ children => (children.map size).foldr (· + ·) 1

/-- The number of nodes on a longest path from the root. -/
def depth : Tree → Nat
  | .node _ children => 1 + (children.map depth).max?.getD 0

/-- Prove a property of all trees from the nodes whose children have it. -/
theorem induction
    {motive : Tree → Prop}
    (node : ∀ label children,
      (∀ child ∈ children, motive child) → motive (.node label children))
    (tree : Tree) :
    motive tree := by
  match tree with
  | .node label children =>
      exact node label children fun child _ => induction node child

end Tree

end ConditionalAssignment
