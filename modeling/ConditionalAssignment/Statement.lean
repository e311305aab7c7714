import ConditionalAssignment.Expression

/-!
# Statements and programs

A statement gives a name a value, or chooses between branches by comparing two
operands.  A branch is a list of statements, so conditionals nest.  An else
branch that is present but empty differs from one that is absent.
-/

namespace ConditionalAssignment

/-- The condition of a conditional. -/
structure Comparison where
  /-- The operand before the sign. -/
  left : Operand
  /-- The sign. -/
  operator : ComparisonOperator
  /-- The operand after the sign. -/
  right : Operand
deriving DecidableEq

/-- One step of a program. -/
inductive Statement where
  /-- Give a name a value. -/
  | assignment (target : String) (value : Expression)
  /-- Choose between branches. -/
  | conditional
      (condition : Comparison)
      (thenBranch : List Statement)
      (elseBranch : Option (List Statement))

namespace Statement

/-- A statement of the then branch is smaller than its conditional. -/
theorem sizeOf_lt_of_mem_thenBranch
    {condition : Comparison}
    {thenBranch : List Statement}
    {elseBranch : Option (List Statement)}
    {statement : Statement}
    (member : statement ∈ thenBranch) :
    sizeOf statement <
      sizeOf (conditional condition thenBranch elseBranch) := by
  have smaller := List.sizeOf_lt_of_mem member
  rw [conditional.sizeOf_spec]
  omega

/-- A statement of the else branch is smaller than its conditional. -/
theorem sizeOf_lt_of_mem_elseBranch
    {condition : Comparison}
    {thenBranch elseBranch : List Statement}
    {statement : Statement}
    (member : statement ∈ elseBranch) :
    sizeOf statement <
      sizeOf (conditional condition thenBranch (some elseBranch)) := by
  have smaller := List.sizeOf_lt_of_mem member
  rw [conditional.sizeOf_spec, Option.some.sizeOf_spec]
  omega

mutual

/-- Decide whether two statements are equal. -/
def decideEq : (left right : Statement) → Decidable (left = right)
  | .assignment leftTarget leftValue, .assignment rightTarget rightValue =>
      decidable_of_iff
        (leftTarget = rightTarget ∧ leftValue = rightValue) (by simp)
  | .conditional leftCondition leftThen leftElse,
      .conditional rightCondition rightThen rightElse =>
      have : Decidable (leftThen = rightThen) :=
        decideEqList leftThen rightThen
      have : Decidable (leftElse = rightElse) :=
        decideEqOption leftElse rightElse
      decidable_of_iff
        (leftCondition = rightCondition ∧ leftThen = rightThen ∧
          leftElse = rightElse) (by simp)
  | .assignment _ _, .conditional _ _ _ => isFalse (by simp)
  | .conditional _ _ _, .assignment _ _ => isFalse (by simp)

/-- Decide whether two lists of statements are equal. -/
def decideEqList : (left right : List Statement) → Decidable (left = right)
  | [], [] => isTrue rfl
  | [], _ :: _ => isFalse (by simp)
  | _ :: _, [] => isFalse (by simp)
  | left :: leftRest, right :: rightRest =>
      have : Decidable (left = right) := decideEq left right
      have : Decidable (leftRest = rightRest) :=
        decideEqList leftRest rightRest
      decidable_of_iff (left = right ∧ leftRest = rightRest) (by simp)

/-- Decide whether two branches that may be absent are equal. -/
def decideEqOption :
    (left right : Option (List Statement)) → Decidable (left = right)
  | none, none => isTrue rfl
  | none, some _ => isFalse (by simp)
  | some _, none => isFalse (by simp)
  | some left, some right =>
      have : Decidable (left = right) := decideEqList left right
      decidable_of_iff (left = right) (by simp)

end

instance : DecidableEq Statement :=
  decideEq

/-- Prove a property of all statements from the conditionals whose branches
have it. -/
theorem induction
    {motive : Statement → Prop}
    (assignment : ∀ target value, motive (.assignment target value))
    (withoutElse : ∀ condition thenBranch,
      (∀ statement ∈ thenBranch, motive statement) →
        motive (.conditional condition thenBranch none))
    (withElse : ∀ condition thenBranch elseBranch,
      (∀ statement ∈ thenBranch, motive statement) →
        (∀ statement ∈ elseBranch, motive statement) →
          motive (.conditional condition thenBranch (some elseBranch)))
    (statement : Statement) :
    motive statement := by
  match statement with
  | .assignment target value => exact assignment target value
  | .conditional condition thenBranch none =>
      exact withoutElse condition thenBranch fun statement _ =>
        induction assignment withoutElse withElse statement
  | .conditional condition thenBranch (some elseBranch) =>
      exact withElse condition thenBranch elseBranch
        (fun statement _ =>
          induction assignment withoutElse withElse statement)
        (fun statement _ =>
          induction assignment withoutElse withElse statement)
termination_by sizeOf statement
decreasing_by
  · exact sizeOf_lt_of_mem_thenBranch ‹_›
  · exact sizeOf_lt_of_mem_thenBranch ‹_›
  · exact sizeOf_lt_of_mem_elseBranch ‹_›

end Statement

/-- A program is a list of statements. -/
structure Program where
  /-- The statements in reading order. -/
  statements : List Statement
deriving DecidableEq

end ConditionalAssignment
