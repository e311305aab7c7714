import ConditionalAssignment.Proofs.Grammar.Canonical
import Mathlib

/-!
# The form of expressions

An expression that can be read is a value, followed by any number of steps.  A
step is an operator with a value behind it, or a group.  A value is an operand or
a group, and what stands inside a group has the same form again.

This form grows at its end and keeps no state.  Alternation, which is closer to
the reader, starts at the front instead and remembers what may come next.  The
two describe the same expressions, so tokens whose words are valid are read
exactly if they are the words of an expression of this form.
-/

namespace ConditionalAssignment

namespace Expression

/-- A value, then any number of operators with a value each and of groups. -/
inductive IsComposed : Expression → Prop
  | operand {operand : Operand} : IsComposed [.operand operand]
  | group {bracket : Bracket} {inner : Expression} :
      IsComposed inner → IsComposed [.group bracket inner]
  | operatorOperand
      {front : Expression}
      {operator : ArithmeticOperator}
      {operand : Operand} :
      IsComposed front →
        IsComposed (front ++ [.operator operator, .operand operand])
  | operatorGroup
      {front inner : Expression}
      {operator : ArithmeticOperator}
      {bracket : Bracket} :
      IsComposed front → IsComposed inner →
        IsComposed (front ++ [.operator operator, .group bracket inner])
  | juxtaposedGroup
      {front inner : Expression}
      {bracket : Bracket} :
      IsComposed front → IsComposed inner →
        IsComposed (front ++ [.group bracket inner])

/-! ## From the end to the front -/

/-- What may follow a value may follow an expression. -/
theorem Alternates.append
    {expectation : Expectation}
    {front rest : Expression}
    (frontAlternates : Alternates expectation front)
    (restAlternates : Alternates .operator rest) :
    Alternates expectation (front ++ rest) := by
  induction frontAlternates with
  | finish => exact restAlternates
  | operand _ inductionHypothesis =>
      exact .operand inductionHypothesis
  | operator _ inductionHypothesis =>
      exact .operator inductionHypothesis
  | group innerAlternates _ _ restHypothesis =>
      exact .group innerAlternates restHypothesis

theorem IsComposed.alternates
    {expression : Expression}
    (isComposed : IsComposed expression) :
    Alternates .value expression := by
  induction isComposed with
  | operand => exact .operand .finish
  | group _ innerHypothesis => exact .group innerHypothesis .finish
  | operatorOperand _ frontHypothesis =>
      exact frontHypothesis.append (.operator (.operand .finish))
  | operatorGroup _ _ frontHypothesis innerHypothesis =>
      exact frontHypothesis.append (.operator (.group innerHypothesis .finish))
  | juxtaposedGroup _ _ frontHypothesis innerHypothesis =>
      exact frontHypothesis.append (.group innerHypothesis .finish)

/-! ## From the front to the end -/

/-- The terms that were met, given what may come next: a whole expression, or
one that still lacks its first or last value. -/
inductive Precedes : Expectation → Expression → Prop
  | start : Precedes .value []
  | operator {front : Expression} {operator : ArithmeticOperator} :
      IsComposed front → Precedes .value (front ++ [.operator operator])
  | whole {front : Expression} :
      IsComposed front → Precedes .operator front

namespace Precedes

theorem append_operand
    {front : Expression}
    (precedes : Precedes .value front)
    (operand : Operand) :
    IsComposed (front ++ [.operand operand]) := by
  cases precedes with
  | start => exact .operand
  | operator isComposed =>
      rw [List.append_assoc]
      exact .operatorOperand isComposed

theorem append_group
    {expectation : Expectation}
    {front inner : Expression}
    (precedes : Precedes expectation front)
    (innerComposed : IsComposed inner)
    (bracket : Bracket) :
    IsComposed (front ++ [.group bracket inner]) := by
  cases precedes with
  | start => exact .group innerComposed
  | operator isComposed =>
      rw [List.append_assoc]
      exact .operatorGroup isComposed innerComposed
  | whole isComposed => exact .juxtaposedGroup isComposed innerComposed

end Precedes

/-- The rest of an expression completes what was met before it. -/
theorem Alternates.isComposed_append
    {expectation : Expectation}
    {front rest : Expression}
    (alternates : Alternates expectation rest)
    (precedes : Precedes expectation front) :
    IsComposed (front ++ rest) := by
  -- The front grows by each term that is met and stays as expected.
  induction alternates generalizing front with
  | finish =>
      cases precedes with
      | whole isComposed =>
          rw [List.append_nil]
          exact isComposed
  | @operand operand rest _ inductionHypothesis =>
      rw [List.append_cons]
      exact inductionHypothesis (.whole (precedes.append_operand operand))
  | @operator operator rest _ inductionHypothesis =>
      cases precedes with
      | whole isComposed =>
          rw [List.append_cons]
          exact inductionHypothesis (.operator isComposed)
  | @group _ bracket inner rest _ _ innerHypothesis restHypothesis =>
      have innerComposed : IsComposed inner := innerHypothesis .start
      rw [List.append_cons]
      exact restHypothesis (.whole (precedes.append_group innerComposed bracket))

/-- The form and the alternation describe the same expressions. -/
theorem isComposed_iff_alternates {expression : Expression} :
    IsComposed expression ↔ Alternates .value expression := by
  constructor
  · exact IsComposed.alternates
  · intro alternates
    exact alternates.isComposed_append .start

/-! ## Reading -/

/-- Tokens with valid words are read as an expression exactly if it has the
form of an expression and they are its words. -/
theorem ofTokens_eq_ok_iff_isComposed
    {tokens : List Token}
    (valid : ∀ token ∈ tokens, token.word.IsValid)
    (anchor : Position)
    (expression : Expression) :
    ofTokens anchor tokens = .ok expression ↔
      IsComposed expression ∧ tokens.map Token.word = expression.words := by
  rw [ofTokens_eq_ok_iff, isComposed_iff_alternates]
  constructor
  · intro reads
    exact reads.alternates (List.forall_mem_map.mpr valid)
  · rintro ⟨alternates, words_eq⟩
    rw [words_eq]
    exact alternates.reads

/-- A group directly follows an operand, and a group of another family stands
inside it.  Where the tokens stand makes no difference. -/
theorem ofTokens_eq_ok_iff_isComposed_nested :
    ∃ tokens : List Token, ∃ expression : Expression,
      tokens.map Token.text = ["a", "[", "(", "1", ")", "-", "b", "]"] ∧
        (∀ token ∈ tokens, token.word.IsValid) ∧
          ofTokens .origin tokens = .ok expression ∧
            IsComposed expression ∧
              tokens.map Token.word = expression.words := by
  let tokens : List Token :=
    [⟨.identifier, "a", .origin⟩, ⟨.openBracket, "[", .origin⟩,
      ⟨.openBracket, "(", .origin⟩, ⟨.constant, "1", .origin⟩,
      ⟨.closeBracket, ")", .origin⟩, ⟨.arithmetic, "-", .origin⟩,
      ⟨.identifier, "b", .origin⟩, ⟨.closeBracket, "]", .origin⟩]
  let expression : Expression :=
    [.operand (.identifier "a"),
      .group .square
        [.group .round [.operand (.constant "1")], .operator .subtract,
          .operand (.identifier "b")]]
  have words_eq : tokens.map Token.word = expression.words := by
    cbv
  have valid : ∀ token ∈ tokens, token.word.IsValid := by
    have aName : IsName "a" := .of_toList_eq_singleton rfl rfl
    have bName : IsName "b" := .of_toList_eq_singleton rfl rfl
    have isNumber : IsNumber "1" :=
      ⟨['1'], [], [], ⟨by simp, List.forall_mem_singleton.mpr rfl⟩,
        Or.inl rfl, Or.inl rfl, rfl⟩
    rw [← List.forall_mem_map, words_eq, expression.isValid_words_iff]
    simp [expression, operands, Term.operands, Operand.IsSpelled, aName, bName,
      isNumber]
  have isComposed : IsComposed expression :=
    .juxtaposedGroup .operand (.operatorOperand (.group .operand))
  have read : ofTokens .origin tokens = .ok expression :=
    (ofTokens_eq_ok_iff_isComposed valid .origin expression).mpr
      ⟨isComposed, words_eq⟩
  exact ⟨tokens, expression, rfl, valid, read, isComposed, words_eq⟩

end Expression

end ConditionalAssignment
