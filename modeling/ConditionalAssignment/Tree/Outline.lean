import ConditionalAssignment.Tree

/-!
# Outlines

An outline draws a tree with one line for each node, parents before children.
The lines of a child hang below its parent: the first line carries a connector,
and the others carry a bar while more children follow.
-/

namespace ConditionalAssignment
namespace Tree

/-- The text in the place of a missing label. -/
def untitled : String :=
  "*"

/-- Put one text before the first line and another before all others. -/
def hang (connector margin : String) : List String → List String
  | [] => []
  | first :: others =>
      (connector ++ first) :: others.map (margin ++ ·)

/-- The lines of sibling blocks below their parent. -/
def hangAll : List (List String) → List String
  | [] => []
  | [block] => hang "└── " "    " block
  | block :: next :: blocks =>
      hang "├── " "│   " block ++ hangAll (next :: blocks)

/-- The lines of an outline, one for each node in preorder. -/
def lines : Tree → List String
  | .node label children =>
      label.getD untitled :: hangAll (children.map lines)

/-- The outline of a tree. -/
def outline (tree : Tree) : String :=
  String.join (tree.lines.map (· ++ "\n"))

end Tree
end ConditionalAssignment
