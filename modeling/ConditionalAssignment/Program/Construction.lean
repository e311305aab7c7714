import ConditionalAssignment.Statement

/-!
# Building programs

Programs are built from values outward.  A text stands for an operand, whose
kind its first character decides; an operand stands for a term; an expression
that is used as a term becomes a group in round brackets.  Assignments and
conditionals under construction are structures of their own and stand for
statements.
-/

namespace ConditionalAssignment

/-! ## Values -/

/-- A spelling that starts with a digit is a number; any other is a name. -/
def Operand.ofText (text : String) : Operand :=
  match text.toList with
  | [] => .identifier text
  | character :: _ =>
      if character.isDigit then .constant text else .identifier text

instance : Coe String Operand :=
  ⟨Operand.ofText⟩

instance : Coe Operand Term :=
  ⟨Term.operand⟩

/-- An expression that is used as a term is a group in round brackets. -/
def Term.ofExpression (expression : Expression) : Term :=
  .group .round expression

instance : Coe Expression Term :=
  ⟨Term.ofExpression⟩

/-! ## Expressions -/

namespace Expression

/-- The expression of one term. -/
def value (first : Term) : Expression :=
  [first]

/-- The expression of one group. -/
def group (bracket : Bracket) (inner : Expression) : Expression :=
  [.group bracket inner]

/-- Append an operator and the term after it. -/
def append
    (expression : Expression)
    (operator : ArithmeticOperator)
    (term : Term) : Expression :=
  List.append expression [.operator operator, term]

/-- Add a term. -/
def plus (expression : Expression) (term : Term) : Expression :=
  expression.append .add term

/-- Subtract a term. -/
def minus (expression : Expression) (term : Term) : Expression :=
  expression.append .subtract term

/-- Multiply by a term. -/
def times (expression : Expression) (term : Term) : Expression :=
  expression.append .multiply term

/-- Divide by a term. -/
def dividedBy (expression : Expression) (term : Term) : Expression :=
  expression.append .divide term

end Expression

instance : Coe Operand Expression :=
  ⟨fun operand => Expression.value operand⟩

/-! ## Statements -/

namespace Comparison

/-- The left operand is less than the right one. -/
def less (left right : Operand) : Comparison :=
  ⟨left, .less, right⟩

/-- The left operand is greater than the right one. -/
def greater (left right : Operand) : Comparison :=
  ⟨left, .greater, right⟩

/-- The two operands are equal. -/
def equal (left right : Operand) : Comparison :=
  ⟨left, .equal, right⟩

end Comparison

/-- An assignment that is not yet part of a program. -/
structure Assignment where
  /-- The name that gets the value. -/
  target : String
  /-- The value. -/
  value : Expression

instance : Coe Assignment Statement :=
  ⟨fun assignment => .assignment assignment.target assignment.value⟩

/-- A conditional under construction. -/
structure Conditional where
  /-- The condition. -/
  condition : Comparison
  /-- The statements for a condition that holds. -/
  thenBranch : List Statement
  /-- The statements for a condition that fails. -/
  elseBranch : Option (List Statement)

namespace Conditional

/-- A conditional with an empty then branch and no else branch. -/
def ofComparison (condition : Comparison) : Conditional :=
  ⟨condition, [], none⟩

/-- Append a statement to the then branch. -/
def andThen
    (conditional : Conditional)
    (statement : Statement) : Conditional :=
  ⟨conditional.condition, conditional.thenBranch ++ [statement],
    conditional.elseBranch⟩

/-- Append a statement to the else branch, which is created if it is absent. -/
def otherwise
    (conditional : Conditional)
    (statement : Statement) : Conditional :=
  ⟨conditional.condition, conditional.thenBranch,
    some (conditional.elseBranch.getD [] ++ [statement])⟩

end Conditional

instance : Coe Conditional Statement :=
  ⟨fun conditional =>
    .conditional conditional.condition conditional.thenBranch
      conditional.elseBranch⟩

/-! ## Programs -/

namespace Program

/-- The program without statements. -/
def empty : Program :=
  ⟨[]⟩

instance : EmptyCollection Program :=
  ⟨empty⟩

/-- Append a statement. -/
def append (program : Program) (statement : Statement) : Program :=
  ⟨program.statements ++ [statement]⟩

/-- Append an assignment. -/
def assign
    (program : Program)
    (target : String)
    (value : Expression) : Program :=
  program.append (Assignment.mk target value)

@[simp] theorem statements_append
    (program : Program)
    (statement : Statement) :
    (program.append statement).statements = program.statements ++ [statement] :=
  rfl

@[simp] theorem statements_assign
    (program : Program)
    (target : String)
    (value : Expression) :
    (program.assign target value).statements =
      program.statements ++ [.assignment target value] :=
  rfl

end Program

end ConditionalAssignment
