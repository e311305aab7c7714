import ConditionalAssignment.Statement

/-!
# Canonical layout

Every program has one canonical text: a top-level statement a line, single
blanks around operators, none inside brackets, and no delimiter before `else`.
The layout is defined for every program, also for one that no text reads as.
-/

namespace ConditionalAssignment

/-- The canonical text of a term. -/
def Term.layout : Term → String
  | .operand value => value.text
  | .operator sign => sign.symbol
  | .group bracket inner =>
      String.singleton bracket.opening ++
        " ".intercalate (inner.map Term.layout) ++
          String.singleton bracket.closing

/-- The canonical text of an expression. -/
def Expression.layout (expression : Expression) : String :=
  " ".intercalate (expression.map Term.layout)

/-- The canonical text of a comparison. -/
def Comparison.layout (comparison : Comparison) : String :=
  comparison.left.text ++ " " ++ comparison.operator.symbol ++ " " ++
    comparison.right.text

/-- The canonical text of a statement, without a delimiter at its end. -/
def Statement.layout : Statement → String
  | .assignment target value => target ++ " := " ++ Expression.layout value
  | .conditional condition thenBranch none =>
      "if " ++ condition.layout ++ " then " ++
        "; ".intercalate (thenBranch.map Statement.layout)
  | .conditional condition thenBranch (some elseBranch) =>
      "if " ++ condition.layout ++ " then " ++
        "; ".intercalate (thenBranch.map Statement.layout) ++
          " else " ++ "; ".intercalate (elseBranch.map Statement.layout)
termination_by statement => sizeOf statement
decreasing_by
  · exact Statement.sizeOf_lt_of_mem_thenBranch ‹_›
  · exact Statement.sizeOf_lt_of_mem_thenBranch ‹_›
  · exact Statement.sizeOf_lt_of_mem_elseBranch ‹_›

/-- The canonical text of a program, one top-level statement a line. -/
def Program.layout (program : Program) : String :=
  String.join
    (program.statements.map fun statement => statement.layout ++ ";\n")

end ConditionalAssignment
