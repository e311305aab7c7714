import ConditionalAssignment.Program.Construction
import ConditionalAssignment.Proofs.Grammar.Composition
import ConditionalAssignment.Proofs.Source.Reading
import Mathlib

/-!
# Built assignments read back

The calls for building keep values and operators alternating: a text or an
operand is a value, an expression in the place of a value becomes a group, and
an operator is never appended without a value behind it.  The kind of an operand
is guessed from the first character of its text, and the guess is right for
every text that is a name or a number.  So a program that is built from
assignments alone is canonical, and its canonical text is read as that program.
-/

namespace ConditionalAssignment

/-! ## What is built -/

/-- A text that can stand for an operand. -/
def IsOperandText (text : String) : Prop :=
  IsName text ∨ IsNumber text

mutual

/-- A term that stands for a text, for the operand made from it, or for an
expression that was built. -/
inductive Term.IsBuilt : Term → Prop
  | ofText {text : String} :
      IsOperandText text → Term.IsBuilt (.operand (.ofText text))
  | ofExpression {expression : Expression} :
      Expression.IsBuilt expression →
        Term.IsBuilt (.ofExpression expression)

/-- An expression that is made by the calls for building. -/
inductive Expression.IsBuilt : Expression → Prop
  | ofText {text : String} :
      IsOperandText text →
        Expression.IsBuilt (.value (.operand (.ofText text)))
  | value {term : Term} :
      Term.IsBuilt term → Expression.IsBuilt (.value term)
  | group {bracket : Bracket} {inner : Expression} :
      Expression.IsBuilt inner → Expression.IsBuilt (.group bracket inner)
  | append
      {front : Expression}
      {operator : ArithmeticOperator}
      {term : Term} :
      Expression.IsBuilt front → Term.IsBuilt term →
        Expression.IsBuilt (front.append operator term)
  | plus {front : Expression} {term : Term} :
      Expression.IsBuilt front → Term.IsBuilt term →
        Expression.IsBuilt (front.plus term)
  | minus {front : Expression} {term : Term} :
      Expression.IsBuilt front → Term.IsBuilt term →
        Expression.IsBuilt (front.minus term)
  | times {front : Expression} {term : Term} :
      Expression.IsBuilt front → Term.IsBuilt term →
        Expression.IsBuilt (front.times term)
  | dividedBy {front : Expression} {term : Term} :
      Expression.IsBuilt front → Term.IsBuilt term →
        Expression.IsBuilt (front.dividedBy term)

end

/-- A program that is made by appending assignments of built expressions. -/
inductive Program.IsBuilt : Program → Prop
  | empty : Program.IsBuilt .empty
  | assign {program : Program} {target : String} {value : Expression} :
      Program.IsBuilt program → IsName target → value.IsBuilt →
        Program.IsBuilt (program.assign target value)
  | append {program : Program} {target : String} {value : Expression} :
      Program.IsBuilt program → IsName target → value.IsBuilt →
        Program.IsBuilt (program.append (Assignment.mk target value))

/-! ## Operands -/

namespace Operand

theorem ofText_of_isName {text : String} (isName : IsName text) :
    ofText text = .identifier text := by
  obtain ⟨⟨letter, others, text_eq, isAlpha, _⟩, _⟩ := isName
  have noDigit : letter.isDigit = false := by
    cases isDigit : letter.isDigit with
    | false => rfl
    | true => rw [isAlpha_of_isDigit isDigit] at isAlpha; cases isAlpha
  simp [ofText, text_eq, noDigit]

theorem ofText_of_isNumber {text : String} (isNumber : IsNumber text) :
    ofText text = .constant text := by
  obtain ⟨digit, others, text_eq, isDigit⟩ := isNumber.exists_digit
  simp [ofText, text_eq, isDigit]

/-- The kind that is guessed from a text suits it. -/
theorem isSpelled_ofText {text : String} (isText : IsOperandText text) :
    (ofText text).IsSpelled ∧ (ofText text).word.text = text := by
  rcases isText with isName | isNumber
  · rw [ofText_of_isName isName]
    exact ⟨isName, rfl⟩
  · rw [ofText_of_isNumber isNumber]
    exact ⟨isNumber, rfl⟩

/-- The text of an operand is one token, of the kind that is guessed. -/
theorem exists_token_ofText {text : String} (isText : IsOperandText text) :
    ∃ token,
      Token.ofSource text = .ok [token] ∧
        token.word = (ofText text).word := by
  obtain ⟨isSpelled, text_eq⟩ := isSpelled_ofText isText
  have spells :=
    Spells.singleton ((isValid_word (ofText text)).mpr isSpelled)
  rw [text_eq] at spells
  obtain ⟨tokens, lexed, words_eq⟩ := Token.ofSource_of_spells spells
  obtain ⟨token, rfl, token_eq⟩ := List.map_eq_singleton_iff.mp words_eq
  exact ⟨token, lexed, token_eq⟩

end Operand

/-! ## Expressions -/

namespace Expression

/-- The expression alternates, and its operands are spelled as such. -/
structure IsReadable (expression : Expression) : Prop where
  /-- Values and operators alternate. -/
  alternates : Alternates .value expression
  /-- Names and numbers are spelled as such. -/
  spelled : ∀ operand ∈ expression.operands, operand.IsSpelled

namespace IsReadable

theorem ofText {text : String} (isText : IsOperandText text) :
    IsReadable (value (.operand (.ofText text))) := by
  refine ⟨.operand .finish, ?_⟩
  rw [operands, value, List.flatMap_singleton, Term.operands,
    List.forall_mem_singleton]
  exact (Operand.isSpelled_ofText isText).1

theorem group
    {inner : Expression}
    (isReadable : inner.IsReadable)
    (bracket : Bracket) :
    IsReadable (.group bracket inner) := by
  refine ⟨.group isReadable.alternates .finish, ?_⟩
  rw [operands, Expression.group, List.flatMap_singleton, Term.operands]
  exact isReadable.spelled

theorem append
    {front : Expression}
    {term : Term}
    (frontReadable : front.IsReadable)
    (termReadable : (value term).IsReadable)
    (operator : ArithmeticOperator) :
    (front.append operator term).IsReadable := by
  have append_eq :
      front.append operator term = front ++ .operator operator :: value term :=
    rfl
  refine ⟨?_, ?_⟩
  · rw [append_eq]
    exact frontReadable.alternates.append (.operator termReadable.alternates)
  · rw [append_eq, operands, List.flatMap_append, List.flatMap_cons,
      Term.operands, List.nil_append, List.forall_mem_append]
    exact ⟨frontReadable.spelled, termReadable.spelled⟩

end IsReadable

end Expression

mutual

theorem Term.IsBuilt.isReadable
    {term : Term} :
    term.IsBuilt → (Expression.value term).IsReadable
  | .ofText isText => .ofText isText
  | .ofExpression isBuilt => isBuilt.isReadable.group .round

theorem Expression.IsBuilt.isReadable
    {expression : Expression} :
    expression.IsBuilt → expression.IsReadable
  | .ofText isText => .ofText isText
  | .value isBuilt => isBuilt.isReadable
  | .group isBuilt => isBuilt.isReadable.group _
  | .append frontBuilt termBuilt
  | .plus frontBuilt termBuilt
  | .minus frontBuilt termBuilt
  | .times frontBuilt termBuilt
  | .dividedBy frontBuilt termBuilt =>
      frontBuilt.isReadable.append termBuilt.isReadable _

end

/-! ## Programs -/

namespace Program

/-- A program that is built from assignments holds nothing else. -/
theorem IsBuilt.exists_assignment
    {program : Program}
    (isBuilt : program.IsBuilt) :
    ∀ statement ∈ program.statements,
      ∃ target value,
        statement = .assignment target value ∧ IsName target ∧
          value.IsReadable := by
  induction isBuilt with
  | empty =>
      intro statement member
      cases member
  | assign _ isName valueBuilt inductionHypothesis
  | append _ isName valueBuilt inductionHypothesis =>
      simp only [statements_assign, statements_append, List.forall_mem_append,
        List.forall_mem_singleton]
      exact ⟨inductionHypothesis, _, _, rfl, isName, valueBuilt.isReadable⟩

theorem IsBuilt.isCanonical
    {program : Program}
    (isBuilt : program.IsBuilt) :
    program.IsCanonical := by
  have areAssignments := isBuilt.exists_assignment
  refine ⟨?_, ?_, ?_⟩
  · rw [operands, List.forall_mem_flatMap]
    intro statement member
    obtain ⟨target, value, rfl, isName, isReadable⟩ :=
      areAssignments statement member
    rw [Statement.operands, List.forall_mem_cons]
    exact ⟨isName, isReadable.spelled⟩
  · rw [values, List.forall_mem_flatMap]
    intro statement member
    obtain ⟨target, value, rfl, isName, isReadable⟩ :=
      areAssignments statement member
    rw [Statement.values, List.forall_mem_singleton]
    exact isReadable.alternates
  · apply Statement.IsSequence.of_forall_isSimple
    intro statement member
    obtain ⟨target, value, rfl, _, _⟩ := areAssignments statement member
    exact .assignment

/-- The canonical text of a program that was built from assignments reads as
that program, and each text of an operand is one token of the kind that was
guessed for it. -/
theorem layout_of_built_reads_back
    {program : Program}
    (isBuilt : program.IsBuilt) :
    Program.ofSource program.layout = .ok program ∧
      ∀ text,
        IsOperandText text →
          ∃ token,
            Token.ofSource text = .ok [token] ∧
              token.word = (Operand.ofText text).word := by
  refine ⟨isBuilt.isCanonical.ofSource_layout, ?_⟩
  intro text isText
  exact Operand.exists_token_ofText isText

/-- A group in square brackets is divided by a number, and an expression that is
used as a value gets parentheses. -/
theorem layout_of_built_reads_back_groups :
    ∃ first second : Expression,
      ∃ program : Program,
        first =
            (Expression.group .square
              ((Expression.value (Operand.ofText "a")).plus
                (Operand.ofText "b"))).dividedBy (Operand.ofText "1.5e3") ∧
          second =
              Expression.value
                (Term.ofExpression (Expression.value (Operand.ofText "c"))) ∧
            program =
                (empty.assign "x" first).append (Assignment.mk "y" second) ∧
              program.IsBuilt ∧
                program.layout = "x := [a + b] / 1.5e3;\ny := (c);\n" ∧
                  Program.ofSource program.layout = .ok program ∧
                    ∃ token,
                      Token.ofSource "1.5e3" = .ok [token] ∧
                        token.word = (Operand.ofText "1.5e3").word := by
  have aText : IsOperandText "a" := Or.inl (.of_toList_eq_singleton rfl rfl)
  have bText : IsOperandText "b" := Or.inl (.of_toList_eq_singleton rfl rfl)
  have cText : IsOperandText "c" := Or.inl (.of_toList_eq_singleton rfl rfl)
  have numberText : IsOperandText "1.5e3" := by
    have isDigits {digit : Char} (isDigit : digit.isDigit = true) :
        Numeral.IsDigits [digit] :=
      ⟨by simp, List.forall_mem_singleton.mpr isDigit⟩
    exact Or.inr
      ⟨['1'], ['.', '5'], ['e', '3'], isDigits rfl,
        Or.inr ⟨['5'], isDigits rfl, rfl⟩,
        Or.inr ⟨'e', [], ['3'], Or.inl rfl, Or.inl rfl, isDigits rfl, rfl⟩,
        rfl⟩
  let first : Expression :=
    (Expression.group .square
      ((Expression.value (Operand.ofText "a")).plus
        (Operand.ofText "b"))).dividedBy (Operand.ofText "1.5e3")
  let second : Expression :=
    Expression.value
      (Term.ofExpression (Expression.value (Operand.ofText "c")))
  have firstBuilt : first.IsBuilt :=
    .dividedBy (.group (.plus (.ofText aText) (.ofText bText)))
      (.ofText numberText)
  have secondBuilt : second.IsBuilt := .value (.ofExpression (.ofText cText))
  let program : Program :=
    (empty.assign "x" first).append (Assignment.mk "y" second)
  have isBuilt : program.IsBuilt :=
    .append
      (.assign .empty (.of_toList_eq_singleton rfl rfl) firstBuilt)
      (.of_toList_eq_singleton rfl rfl) secondBuilt
  obtain ⟨readsBack, tokens⟩ := layout_of_built_reads_back isBuilt
  have layout_eq :
      program.layout = "x := [a + b] / 1.5e3;\ny := (c);\n" := by
    cbv
  exact ⟨first, second, program, rfl, rfl, rfl, isBuilt, layout_eq, readsBack,
    tokens "1.5e3" numberText⟩

end Program

end ConditionalAssignment
