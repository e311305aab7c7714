import ConditionalAssignment.Statement
import ConditionalAssignment.Token
import ConditionalAssignment.Tree

/-!
# Lowering to trees

Lowering forgets what the parts of a program are and keeps their spellings and
their nesting.  Assignments, comparisons, conditionals and expressions become
groups; operands, operators, signs and reserved words become leaves.  The
delimiters and the families of brackets are lost.
-/

namespace ConditionalAssignment

/-- The tree of a term.  A bracketed group holds the group of its terms. -/
def Term.tree : Term → Tree
  | .operand value => .leaf value.text
  | .operator sign => .leaf sign.symbol
  | .group _ inner => .group [.group (inner.map Term.tree)]

/-- The tree of an expression. -/
def Expression.tree (expression : Expression) : Tree :=
  .group (expression.map Term.tree)

/-- The tree of a comparison. -/
def Comparison.tree (comparison : Comparison) : Tree :=
  .group
    [.leaf comparison.left.text, .leaf comparison.operator.symbol,
      .leaf comparison.right.text]

/-- The tree of a statement.  The statements of both branches are children of
the conditional itself. -/
def Statement.tree : Statement → Tree
  | .assignment target value =>
      .group [.leaf target, .leaf ":=", Expression.tree value]
  | .conditional condition thenBranch none =>
      .group
        (.leaf Keyword.ifWord.spelling :: condition.tree ::
          .leaf Keyword.thenWord.spelling :: thenBranch.map Statement.tree)
  | .conditional condition thenBranch (some elseBranch) =>
      .group
        (.leaf Keyword.ifWord.spelling :: condition.tree ::
          .leaf Keyword.thenWord.spelling ::
            (thenBranch.map Statement.tree ++
              .leaf Keyword.elseWord.spelling ::
                elseBranch.map Statement.tree))
termination_by statement => sizeOf statement
decreasing_by
  · exact Statement.sizeOf_lt_of_mem_thenBranch ‹_›
  · exact Statement.sizeOf_lt_of_mem_thenBranch ‹_›
  · exact Statement.sizeOf_lt_of_mem_elseBranch ‹_›

/-- The tree of a program. -/
def Program.tree (program : Program) : Tree :=
  .group (program.statements.map Statement.tree)

end ConditionalAssignment
