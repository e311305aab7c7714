import ConditionalAssignment.Proofs.Grammar.Canonical
import ConditionalAssignment.Proofs.Grammar.Passage
import ConditionalAssignment.Tree.Lowering

/-!
# Nothing is empty below the root

The types allow empty expressions, empty branches and nodes without a label or
children.  What is read holds none of them.  An expression that is read has a
first value, also where unknown operators add no term, and so has every
expression inside its groups.  A branch that is read holds a statement, and an
else branch holds exactly one.  A tree has an empty group only where an
expression is empty, so every node of a lowered program is a leaf or a group
with children.
-/

namespace ConditionalAssignment

/-! ## Nodes of a tree -/

namespace Tree

/-- The nodes of a tree, each with all that is below it, parents before
children. -/
def subtrees : Tree → List Tree
  | .node label children =>
      .node label children :: children.flatMap subtrees

/-- The nodes strictly below the root. -/
def descendants (tree : Tree) : List Tree :=
  tree.children.flatMap subtrees

/-- A leaf, or a group with at least one child. -/
inductive IsFilled : Tree → Prop
  | leaf {spelling : String} : IsFilled (leaf spelling)
  | group {first : Tree} {others : List Tree} :
      IsFilled (group (first :: others))

/-- The tree and all that is below it is filled. -/
def AllFilled (tree : Tree) : Prop :=
  ∀ node ∈ tree.subtrees, node.IsFilled

@[simp] theorem allFilled_leaf (spelling : String) :
    (leaf spelling).AllFilled := by
  rw [AllFilled, leaf, subtrees, List.flatMap_nil, List.forall_mem_singleton]
  exact .leaf

theorem isFilled_group_iff {children : List Tree} :
    (group children).IsFilled ↔ children ≠ [] := by
  cases children with
  | nil =>
      constructor
      · rintro ⟨⟩
      · intro nonempty
        exact absurd rfl nonempty
  | cons first others => exact ⟨fun _ => by simp, fun _ => .group⟩

@[simp] theorem allFilled_group {children : List Tree} :
    (group children).AllFilled ↔
      children ≠ [] ∧ ∀ child ∈ children, child.AllFilled := by
  rw [AllFilled, group, subtrees, List.forall_mem_cons,
    List.forall_mem_flatMap, ← group, isFilled_group_iff]
  rfl

end Tree

/-! ## Expressions -/

/-- The expressions inside the groups of a term, at every depth. -/
def Term.inners : Term → List Expression
  | .operand _ => []
  | .operator _ => []
  | .group _ inner => inner :: inner.flatMap Term.inners

/-- An expression and those inside its groups, at every depth. -/
def Expression.parts (expression : Expression) : List Expression :=
  expression :: expression.flatMap Term.inners

/-- Neither the expression nor one inside its groups is empty. -/
def Expression.IsFilled (expression : Expression) : Prop :=
  ∀ part ∈ expression.parts, part ≠ []

theorem Expression.isFilled_iff {expression : Expression} :
    expression.IsFilled ↔
      expression ≠ [] ∧
        ∀ term ∈ expression, ∀ part ∈ term.inners, part ≠ [] := by
  rw [IsFilled, parts, List.forall_mem_cons, List.forall_mem_flatMap]

namespace Expression.Reads

/-- An expression is read from its first value on. -/
theorem terms_ne_nil
    {words : List Word}
    {terms : Expression}
    (reads : Reads .value words terms) :
    terms ≠ [] := by
  cases reads <;> simp

/-- The groups of what is read hold something. -/
theorem inners_ne_nil
    {expectation : Expectation}
    {words : List Word}
    {terms : Expression}
    (reads : Reads expectation words terms) :
    ∀ term ∈ terms, ∀ part ∈ term.inners, part ≠ [] := by
  induction reads with
  | finish => simp
  | operand _ inductionHypothesis =>
      rw [List.forall_mem_cons]
      exact ⟨by simp [Term.inners], inductionHypothesis⟩
  | operator _ _ inductionHypothesis =>
      rw [List.forall_mem_cons]
      exact ⟨by simp [Term.inners], inductionHypothesis⟩
  | unknownOperator _ _ inductionHypothesis =>
      -- The operator adds no term, and the values around it are still read.
      exact inductionHypothesis
  | group _ innerReads _ innerHypothesis restHypothesis =>
      rw [List.forall_mem_cons, Term.inners, List.forall_mem_cons,
        List.forall_mem_flatMap]
      exact ⟨⟨innerReads.terms_ne_nil, innerHypothesis⟩, restHypothesis⟩

theorem isFilled
    {words : List Word}
    {value : Expression}
    (reads : Reads .value words value) :
    value.IsFilled :=
  isFilled_iff.mpr ⟨reads.terms_ne_nil, reads.inners_ne_nil⟩

end Expression.Reads

/-! ## Statements -/

namespace Statement

/-- The values that a statement assigns are filled. -/
def AssignsFilled (statement : Statement) : Prop :=
  ∀ value ∈ statement.values, value.IsFilled

/-- The branches of a conditional hold something, and its else branch holds
exactly one statement. -/
def HasFilledBranches : Statement → Prop
  | assignment _ _ => True
  | conditional _ thenBranch elseBranch =>
      thenBranch ≠ [] ∧
        ∀ branch ∈ elseBranch, ∃ alternative, branch = [alternative]

/-- Every value that a statement assigns was read from words of its own. -/
theorem ReadsSimple.exists_reads_of_mem_values
    {words : List Word}
    {statement : Statement}
    (reads : ReadsSimple words statement) :
    ∀ value ∈ statement.values,
      ∃ valueWords, Expression.Reads .value valueWords value := by
  induction reads with
  | assignment valueReads =>
      rw [values, List.forall_mem_singleton]
      exact ⟨_, valueReads⟩
  | conditional _ inductionHypothesis =>
      rw [values, List.flatMap_singleton]
      exact inductionHypothesis

theorem ReadsRange.exists_reads_of_mem_values
    {termination : Termination}
    {words : List Word}
    {statements : List Statement}
    (reads : ReadsRange termination words statements) :
    ∀ statement ∈ statements, ∀ value ∈ statement.values,
      ∃ valueWords, Expression.Reads .value valueWords value := by
  induction reads with
  | nil => simp
  | simple simpleReads _ _ _ restHypothesis =>
      rw [List.forall_mem_cons]
      exact ⟨simpleReads.exists_reads_of_mem_values, restHypothesis⟩
  | choice _ elseReads _ _ _ thenHypothesis restHypothesis =>
      rw [List.forall_mem_cons]
      refine ⟨?_, restHypothesis⟩
      rw [values, List.forall_mem_append, List.forall_mem_flatMap,
        List.flatMap_singleton]
      exact ⟨thenHypothesis, elseReads.exists_reads_of_mem_values⟩

theorem ReadsRange.assignsFilled
    {termination : Termination}
    {words : List Word}
    {statements : List Statement}
    (reads : ReadsRange termination words statements) :
    ∀ statement ∈ statements, statement.AssignsFilled := by
  intro statement statementMember value valueMember
  obtain ⟨valueWords, valueReads⟩ :=
    reads.exists_reads_of_mem_values statement statementMember value valueMember
  exact valueReads.isFilled

theorem IsSimple.hasFilledBranches
    {statement : Statement}
    (isSimple : statement.IsSimple) :
    ∀ inside ∈ statement.preorder, inside.HasFilledBranches := by
  induction isSimple with
  | assignment =>
      rw [preorder, List.forall_mem_singleton]
      trivial
  | conditional _ inductionHypothesis =>
      rw [preorder, List.forall_mem_cons, List.flatMap_singleton]
      exact ⟨⟨by simp, by simp⟩, inductionHypothesis⟩

/-- Statements that can be told apart have no empty branches, and no else
branch with several statements. -/
theorem IsSequence.hasFilledBranches
    {statements : List Statement}
    (isSequence : IsSequence statements) :
    ∀ statement ∈ statements,
      ∀ inside ∈ statement.preorder, inside.HasFilledBranches := by
  induction isSequence with
  | nil => simp
  | assignment _ restHypothesis =>
      rw [List.forall_mem_cons]
      exact ⟨IsSimple.assignment.hasFilledBranches, restHypothesis⟩
  | simple isSimple _ _ restHypothesis =>
      rw [List.forall_mem_cons]
      exact ⟨isSimple.hasFilledBranches, restHypothesis⟩
  | choice nonempty _ isSimple _ _ thenHypothesis restHypothesis =>
      rw [List.forall_mem_cons]
      refine ⟨?_, restHypothesis⟩
      rw [preorder, List.forall_mem_cons, List.forall_mem_append,
        List.forall_mem_flatMap, List.flatMap_singleton]
      exact ⟨⟨nonempty, by simp⟩, thenHypothesis, isSimple.hasFilledBranches⟩

end Statement

/-! ## Lowering -/

theorem Term.allFilled_tree
    {term : Term}
    (filled : ∀ part ∈ term.inners, part ≠ []) :
    term.tree.AllFilled := by
  induction term using Term.induction with
  | operand value =>
      rw [tree]
      exact Tree.allFilled_leaf _
  | operator sign =>
      rw [tree]
      exact Tree.allFilled_leaf _
  | group bracket inner inductionHypothesis =>
      rw [inners, List.forall_mem_cons, List.forall_mem_flatMap] at filled
      obtain ⟨nonempty, innerFilled⟩ := filled
      rw [tree]
      simp only [Tree.allFilled_group, List.forall_mem_singleton,
        List.forall_mem_map, ne_eq, List.map_eq_nil_iff]
      refine ⟨by simp, nonempty, ?_⟩
      intro term member
      exact inductionHypothesis term member (innerFilled term member)

theorem Expression.IsFilled.allFilled_tree
    {expression : Expression}
    (isFilled : expression.IsFilled) :
    expression.tree.AllFilled := by
  obtain ⟨nonempty, filled⟩ := isFilled_iff.mp isFilled
  rw [tree, Tree.allFilled_group, List.forall_mem_map]
  refine ⟨by simpa using nonempty, ?_⟩
  intro term member
  exact Term.allFilled_tree (filled term member)

theorem Comparison.allFilled_tree (comparison : Comparison) :
    comparison.tree.AllFilled := by
  simp [tree]

/-- Empty branches leave no empty group behind, so the values alone decide. -/
theorem Statement.AssignsFilled.allFilled_tree
    {statement : Statement}
    (assignsFilled : statement.AssignsFilled) :
    statement.tree.AllFilled := by
  unfold AssignsFilled at assignsFilled
  induction statement using Statement.induction with
  | assignment target value =>
      rw [values, List.forall_mem_singleton] at assignsFilled
      rw [tree]
      simp [assignsFilled.allFilled_tree]
  | withoutElse condition thenBranch thenHypothesis =>
      rw [values, List.forall_mem_flatMap] at assignsFilled
      rw [tree]
      simp only [Tree.allFilled_group, List.forall_mem_cons,
        List.forall_mem_map, Tree.allFilled_leaf, condition.allFilled_tree]
      refine ⟨by simp, trivial, trivial, trivial, ?_⟩
      intro statement member
      exact thenHypothesis statement member (assignsFilled statement member)
  | withElse condition thenBranch elseBranch thenHypothesis elseHypothesis =>
      rw [values, List.forall_mem_append, List.forall_mem_flatMap,
        List.forall_mem_flatMap] at assignsFilled
      obtain ⟨thenFilled, elseFilled⟩ := assignsFilled
      rw [tree]
      simp only [Tree.allFilled_group, List.forall_mem_cons,
        List.forall_mem_append, List.forall_mem_map, Tree.allFilled_leaf,
        condition.allFilled_tree]
      refine ⟨by simp, trivial, trivial, trivial, ?_, trivial, ?_⟩
      · intro statement member
        exact thenHypothesis statement member (thenFilled statement member)
      · intro statement member
        exact elseHypothesis statement member (elseFilled statement member)

/-- Below the root of a program whose values are filled, every node is a leaf or
a group with children. -/
theorem Program.isFilled_of_mem_descendants
    {program : Program}
    (assignsFilled : ∀ statement ∈ program.statements,
      statement.AssignsFilled) :
    ∀ node ∈ program.tree.descendants, node.IsFilled := by
  rw [tree, Tree.descendants, Tree.group, Tree.children,
    List.forall_mem_flatMap, List.forall_mem_map]
  intro statement member
  exact (assignsFilled statement member).allFilled_tree

end ConditionalAssignment
