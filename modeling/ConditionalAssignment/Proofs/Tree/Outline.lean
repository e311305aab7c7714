import ConditionalAssignment.Proofs.Lines
import ConditionalAssignment.Tree.Lowering
import ConditionalAssignment.Tree.Outline

/-!
# The lines of an outline

An outline has one line for each node.  If the labels of a tree are lines, then
so are those of its outline, since hanging a block puts only connectors and bars
in front.  The nodes of a tree that a program is lowered to are labelled exactly
if they have no children.
-/

namespace ConditionalAssignment

namespace Tree

/-! ## Blocks of lines -/

@[simp] theorem length_hang
    (connector margin : String)
    (block : List String) :
    (hang connector margin block).length = block.length := by
  cases block with
  | nil => rfl
  | cons first others => simp [hang]

/-- The text before the first line of a block below its parent. -/
def connector (isLast : Bool) : String :=
  if isLast then "└── " else "├── "

/-- The text before the other lines of a block below its parent. -/
def margin (isLast : Bool) : String :=
  if isLast then "    " else "│   "

theorem isLine_connector (isLast : Bool) : IsLine (connector isLast) := by
  cases isLast <;> decide

theorem isLine_margin (isLast : Bool) : IsLine (margin isLast) := by
  cases isLast <;> decide

theorem hangAll_cons (block : List String) (blocks : List (List String)) :
    hangAll (block :: blocks) =
      hang (connector blocks.isEmpty) (margin blocks.isEmpty) block ++
        hangAll blocks := by
  cases blocks with
  | nil => simp [hangAll, connector, margin]
  | cons next others => rfl

/-- A block has as many lines when it hangs below its parent. -/
theorem length_hangAll (blocks : List (List String)) :
    (hangAll blocks).length + 1 =
      (blocks.map List.length).foldr (· + ·) 1 := by
  induction blocks with
  | nil => rfl
  | cons block others inductionHypothesis =>
      rw [hangAll_cons, List.length_append, length_hang, Nat.add_assoc,
        inductionHypothesis]
      rfl

/-- An outline has one line for each node. -/
theorem length_lines (tree : Tree) : tree.lines.length = tree.size := by
  induction tree using Tree.induction with
  | node label children inductionHypothesis =>
      rw [lines, size, List.length_cons, length_hangAll, List.map_map]
      congr 1
      exact List.map_congr_left inductionHypothesis

theorem isLine_of_mem_hang
    {connector margin : String}
    {block : List String}
    (connectorIsLine : IsLine connector)
    (marginIsLine : IsLine margin)
    (areLines : ∀ line ∈ block, IsLine line) :
    ∀ line ∈ hang connector margin block, IsLine line := by
  cases block with
  | nil =>
      intro line member
      cases member
  | cons first others =>
      rw [List.forall_mem_cons] at areLines
      rw [hang, List.forall_mem_cons, List.forall_mem_map]
      simp only [isLine_append]
      exact ⟨⟨connectorIsLine, areLines.1⟩, fun line member =>
        ⟨marginIsLine, areLines.2 line member⟩⟩

theorem isLine_of_mem_hangAll
    {blocks : List (List String)}
    (areLines : ∀ block ∈ blocks, ∀ line ∈ block, IsLine line) :
    ∀ line ∈ hangAll blocks, IsLine line := by
  induction blocks with
  | nil =>
      intro line member
      cases member
  | cons block others inductionHypothesis =>
      rw [List.forall_mem_cons] at areLines
      rw [hangAll_cons, List.forall_mem_append]
      exact
        ⟨isLine_of_mem_hang (isLine_connector _) (isLine_margin _) areLines.1,
          inductionHypothesis areLines.2⟩

/-! ## Labels -/

/-- The labels of all nodes, parents before children. -/
def labels : Tree → List String
  | .node label children => label.toList ++ children.flatMap labels

@[simp] theorem labels_leaf (spelling : String) :
    (leaf spelling).labels = [spelling] := by
  rw [leaf, labels]
  rfl

@[simp] theorem labels_group (children : List Tree) :
    (group children).labels = children.flatMap labels := by
  rw [group, labels]
  rfl

/-- The lines of an outline are lines if the labels are. -/
theorem isLine_of_mem_lines
    {tree : Tree}
    (areLines : ∀ label ∈ tree.labels, IsLine label) :
    ∀ line ∈ tree.lines, IsLine line := by
  induction tree using Tree.induction with
  | node label children inductionHypothesis =>
      rw [labels, List.forall_mem_append, List.forall_mem_flatMap] at areLines
      rw [lines, List.forall_mem_cons]
      constructor
      · cases label with
        | none => decide
        | some text => exact areLines.1 text (by simp)
      · apply isLine_of_mem_hangAll
        rw [List.forall_mem_map]
        intro child member
        exact inductionHypothesis child member (areLines.2 child member)

/-- The outline of a tree is printed with one line for each node. -/
theorem lineCount_outline
    {tree : Tree}
    (areLines : ∀ label ∈ tree.labels, IsLine label) :
    lineCount tree.outline = tree.size := by
  rw [outline, lineCount_join (isLine_of_mem_lines areLines), length_lines]

end Tree

/-! ## Labels of lowered programs -/

/-- Trees are labelled at their leaves alone if each of them is. -/
theorem Tree.flatMap_labels_map
    {item : Type}
    {tree : item → Tree}
    {items : List item}
    (labels_eq : ∀ found ∈ items, (tree found).labels = (tree found).leaves) :
    (items.map tree).flatMap labels = (items.map tree).flatMap leaves := by
  rw [List.flatMap_map, List.flatMap_map, List.flatMap_def, List.flatMap_def,
    List.map_congr_left labels_eq]

theorem Term.labels_tree (term : Term) :
    term.tree.labels = term.tree.leaves := by
  induction term using Term.induction with
  | operand value =>
      rw [tree, Tree.labels_leaf, Tree.leaves_leaf]
  | operator sign =>
      rw [tree, Tree.labels_leaf, Tree.leaves_leaf]
  | group bracket inner inductionHypothesis =>
      rw [tree]
      simp [Tree.flatMap_labels_map inductionHypothesis]

theorem Expression.labels_tree (expression : Expression) :
    expression.tree.labels = expression.tree.leaves := by
  rw [tree, Tree.labels_group, Tree.leaves_group]
  exact Tree.flatMap_labels_map fun term _ => term.labels_tree

theorem Comparison.labels_tree (comparison : Comparison) :
    comparison.tree.labels = comparison.tree.leaves := by
  simp [tree]

theorem Statement.labels_tree (statement : Statement) :
    statement.tree.labels = statement.tree.leaves := by
  induction statement using Statement.induction with
  | assignment target value =>
      rw [tree]
      simp [value.labels_tree]
  | withoutElse condition thenBranch thenHypothesis =>
      have then_eq := Tree.flatMap_labels_map thenHypothesis
      rw [tree]
      simp only [Tree.labels_group, Tree.leaves_group, List.flatMap_cons,
        Tree.labels_leaf, Tree.leaves_leaf, condition.labels_tree, then_eq]
  | withElse condition thenBranch elseBranch thenHypothesis elseHypothesis =>
      have then_eq := Tree.flatMap_labels_map thenHypothesis
      have else_eq := Tree.flatMap_labels_map elseHypothesis
      rw [tree]
      simp only [Tree.labels_group, Tree.leaves_group, List.flatMap_cons,
        List.flatMap_append, Tree.labels_leaf, Tree.leaves_leaf,
        condition.labels_tree, then_eq, else_eq]

/-- Only the leaves of a lowered program are labelled. -/
theorem Program.labels_tree (program : Program) :
    program.tree.labels = program.tree.leaves := by
  rw [tree, Tree.labels_group, Tree.leaves_group]
  exact Tree.flatMap_labels_map fun statement _ => statement.labels_tree

end ConditionalAssignment
