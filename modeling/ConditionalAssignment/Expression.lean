import ConditionalAssignment.Bracket
import ConditionalAssignment.Operator

/-!
# Expressions

An expression is flat: a list of terms in reading order, without precedence.
A term is an operand, an operator or a bracketed group with an expression of
its own, and a group keeps the family of its brackets.  The type does not ask
that values and operators alternate; that is a property of the expressions that
can be read from a text.
-/

namespace ConditionalAssignment

/-- A name or a number, with its exact spelling. -/
inductive Operand where
  /-- A name. -/
  | identifier (text : String)
  /-- A number. -/
  | constant (text : String)
deriving DecidableEq

/-- The spelling of an operand. -/
def Operand.text : Operand → String
  | identifier text => text
  | constant text => text

/-- One item of an expression. -/
inductive Term where
  /-- A name or a number. -/
  | operand (operand : Operand)
  /-- An operator between two values. -/
  | operator (operator : ArithmeticOperator)
  /-- A bracketed expression. -/
  | group (bracket : Bracket) (inner : List Term)

/-- The terms of an expression in reading order. -/
abbrev Expression := List Term

namespace Term

mutual

/-- Decide whether two terms are equal. -/
def decideEq : (left right : Term) → Decidable (left = right)
  | .operand left, .operand right =>
      decidable_of_iff (left = right) (by simp)
  | .operator left, .operator right =>
      decidable_of_iff (left = right) (by simp)
  | .group leftBracket leftInner, .group rightBracket rightInner =>
      have : Decidable (leftInner = rightInner) :=
        decideEqList leftInner rightInner
      decidable_of_iff
        (leftBracket = rightBracket ∧ leftInner = rightInner) (by simp)
  | .operand _, .operator _ => isFalse (by simp)
  | .operand _, .group _ _ => isFalse (by simp)
  | .operator _, .operand _ => isFalse (by simp)
  | .operator _, .group _ _ => isFalse (by simp)
  | .group _ _, .operand _ => isFalse (by simp)
  | .group _ _, .operator _ => isFalse (by simp)

/-- Decide whether two lists of terms are equal. -/
def decideEqList : (left right : List Term) → Decidable (left = right)
  | [], [] => isTrue rfl
  | [], _ :: _ => isFalse (by simp)
  | _ :: _, [] => isFalse (by simp)
  | left :: leftRest, right :: rightRest =>
      have : Decidable (left = right) := decideEq left right
      have : Decidable (leftRest = rightRest) :=
        decideEqList leftRest rightRest
      decidable_of_iff (left = right ∧ leftRest = rightRest) (by simp)

end

instance : DecidableEq Term :=
  decideEq

/-- Prove a property of all terms from the groups whose inner terms have it. -/
theorem induction
    {motive : Term → Prop}
    (operand : ∀ operand, motive (.operand operand))
    (operator : ∀ operator, motive (.operator operator))
    (group : ∀ bracket inner,
      (∀ term ∈ inner, motive term) → motive (.group bracket inner))
    (term : Term) :
    motive term := by
  match term with
  | .operand value => exact operand value
  | .operator value => exact operator value
  | .group bracket inner =>
      exact group bracket inner fun term _ =>
        induction operand operator group term

end Term

end ConditionalAssignment
