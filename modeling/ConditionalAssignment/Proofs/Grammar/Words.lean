import ConditionalAssignment.Proofs.Grammar.Statement

/-!
# The words of a program

A program has words of its own: those of its canonical text, in order.  A
delimiter stands between two statements of a branch and behind every top-level
statement, and none stands before `else`.  The words are valid exactly if the
names and numbers of the program are spelled as such, since all other words of
a program have a fixed spelling.
-/

namespace ConditionalAssignment

/-! ## Expressions -/

/-- The words of a term. -/
def Term.words : Term → List Word
  | .operand value => [value.word]
  | .operator sign => [⟨.arithmetic, sign.symbol⟩]
  | .group bracket inner =>
      Word.opening bracket ::
        (inner.flatMap Term.words ++ [Word.closing bracket])

/-- The words of an expression. -/
def Expression.words (expression : Expression) : List Word :=
  expression.flatMap Term.words

namespace Expression

@[simp] theorem words_nil : words [] = [] :=
  rfl

@[simp] theorem words_cons (first : Term) (rest : Expression) :
    words (first :: rest) = first.words ++ rest.words :=
  List.flatMap_cons

end Expression

namespace Term

@[simp] theorem words_operand (value : Operand) :
    (operand value).words = [value.word] := by
  rw [words]

@[simp] theorem words_operator (sign : ArithmeticOperator) :
    (operator sign).words = [⟨.arithmetic, sign.symbol⟩] := by
  rw [words]

@[simp] theorem words_group (bracket : Bracket) (inner : Expression) :
    (group bracket inner).words =
      Word.opening bracket :: (inner.words ++ [Word.closing bracket]) := by
  rw [words, Expression.words]

end Term

/-- The operands of a term, also those inside its groups. -/
def Term.operands : Term → List Operand
  | .operand value => [value]
  | .operator _ => []
  | .group _ inner => inner.flatMap Term.operands

/-- The operands of an expression, also those inside its groups. -/
def Expression.operands (expression : Expression) : List Operand :=
  expression.flatMap Term.operands

/-- The text of an operand suits its kind. -/
def Operand.IsSpelled : Operand → Prop
  | identifier text => IsName text
  | constant text => IsNumber text

@[simp] theorem Operand.isValid_word (operand : Operand) :
    operand.word.IsValid ↔ operand.IsSpelled := by
  cases operand <;> exact Iff.rfl

/-! ## Words of fixed spelling -/

namespace Word

@[simp] theorem isValid_arithmetic (operator : ArithmeticOperator) :
    IsValid ⟨.arithmetic, operator.symbol⟩ :=
  ⟨operator, rfl⟩

@[simp] theorem isValid_comparison (operator : ComparisonOperator) :
    IsValid ⟨.comparison, operator.symbol⟩ :=
  ⟨operator, rfl⟩

@[simp] theorem isValid_opening (bracket : Bracket) :
    (opening bracket).IsValid :=
  ⟨bracket, rfl⟩

@[simp] theorem isValid_closing (bracket : Bracket) :
    (closing bracket).IsValid :=
  ⟨bracket, rfl⟩

@[simp] theorem isValid_ofKeyword (keyword : Keyword) :
    (ofKeyword keyword).IsValid :=
  rfl

@[simp] theorem isValid_delimiter : delimiter.IsValid :=
  rfl

@[simp] theorem isValid_assignment : assignment.IsValid :=
  rfl

@[simp] theorem isValid_identifier (name : String) :
    IsValid ⟨.identifier, name⟩ ↔ IsName name :=
  Iff.rfl

end Word

theorem Term.isValid_words_iff (term : Term) :
    (∀ word ∈ term.words, word.IsValid) ↔
      ∀ operand ∈ term.operands, operand.IsSpelled := by
  induction term using Term.induction with
  | operand value => simp [operands]
  | operator sign => simp [operands]
  | group bracket inner inductionHypothesis =>
      rw [words, operands, List.forall_mem_cons, List.forall_mem_append,
        List.forall_mem_singleton, List.forall_mem_flatMap,
        List.forall_mem_flatMap, forall₂_congr inductionHypothesis]
      simp only [Word.isValid_opening, Word.isValid_closing, true_and, and_true]

theorem Expression.isValid_words_iff (expression : Expression) :
    (∀ word ∈ expression.words, word.IsValid) ↔
      ∀ operand ∈ expression.operands, operand.IsSpelled := by
  unfold words operands
  rw [List.forall_mem_flatMap, List.forall_mem_flatMap]
  exact forall₂_congr fun term _ => term.isValid_words_iff

theorem Comparison.isValid_words_iff (comparison : Comparison) :
    (∀ word ∈ comparison.words, word.IsValid) ↔
      comparison.left.IsSpelled ∧ comparison.right.IsSpelled := by
  simp [words]

/-! ## Statements -/

namespace Statement

/-- The words of a statement, without a delimiter at its end. -/
def words : Statement → List Word
  | assignment target value =>
      ⟨.identifier, target⟩ :: Word.assignment :: Expression.words value
  | conditional condition thenBranch none =>
      Word.ofKeyword .ifWord ::
        (condition.words ++ Word.ofKeyword .thenWord ::
          [Word.delimiter].intercalate (thenBranch.map words))
  | conditional condition thenBranch (some elseBranch) =>
      Word.ofKeyword .ifWord ::
        (condition.words ++ Word.ofKeyword .thenWord ::
          ([Word.delimiter].intercalate (thenBranch.map words) ++
            Word.ofKeyword .elseWord ::
              [Word.delimiter].intercalate (elseBranch.map words)))
termination_by statement => sizeOf statement
decreasing_by
  · exact sizeOf_lt_of_mem_thenBranch ‹_›
  · exact sizeOf_lt_of_mem_thenBranch ‹_›
  · exact sizeOf_lt_of_mem_elseBranch ‹_›

/-- The words of a branch, with a delimiter between two statements. -/
def joinedWords (branch : List Statement) : List Word :=
  [Word.delimiter].intercalate (branch.map words)

@[simp] theorem joinedWords_nil : joinedWords [] = [] :=
  rfl

@[simp] theorem joinedWords_singleton (statement : Statement) :
    joinedWords [statement] = statement.words :=
  List.intercalate_singleton

@[simp] theorem joinedWords_cons_cons
    (first second : Statement)
    (others : List Statement) :
    joinedWords (first :: second :: others) =
      first.words ++ Word.delimiter :: joinedWords (second :: others) := by
  simp [joinedWords]

@[simp] theorem words_withElse_singleton
    {condition : Comparison}
    {thenBranch : List Statement}
    {alternative : Statement} :
    (conditional condition thenBranch (some [alternative])).words =
      Word.ofKeyword .ifWord ::
        (condition.words ++ Word.ofKeyword .thenWord ::
          (joinedWords thenBranch ++
            Word.ofKeyword .elseWord :: alternative.words)) := by
  rw [words, List.map_singleton, List.intercalate_singleton]
  rfl

/-- The operands of a statement, its targets as names among them. -/
def operands : Statement → List Operand
  | assignment target value =>
      .identifier target :: Expression.operands value
  | conditional condition thenBranch none =>
      condition.left :: condition.right :: thenBranch.flatMap operands
  | conditional condition thenBranch (some elseBranch) =>
      condition.left :: condition.right ::
        (thenBranch.flatMap operands ++ elseBranch.flatMap operands)
termination_by statement => sizeOf statement
decreasing_by
  · exact sizeOf_lt_of_mem_thenBranch ‹_›
  · exact sizeOf_lt_of_mem_thenBranch ‹_›
  · exact sizeOf_lt_of_mem_elseBranch ‹_›

/-- The expressions that a statement assigns, also those inside its branches. -/
def values : Statement → List Expression
  | assignment _ value => [value]
  | conditional _ thenBranch none => thenBranch.flatMap values
  | conditional _ thenBranch (some elseBranch) =>
      thenBranch.flatMap values ++ elseBranch.flatMap values
termination_by statement => sizeOf statement
decreasing_by
  · exact sizeOf_lt_of_mem_thenBranch ‹_›
  · exact sizeOf_lt_of_mem_thenBranch ‹_›
  · exact sizeOf_lt_of_mem_elseBranch ‹_›

/-- The words of a branch are those of its statements and delimiters. -/
theorem forall_mem_joinedWords_iff
    {accepted : Word → Prop}
    (acceptsDelimiter : accepted Word.delimiter)
    (branch : List Statement) :
    (∀ word ∈ joinedWords branch, accepted word) ↔
      ∀ statement ∈ branch, ∀ word ∈ statement.words, accepted word := by
  induction branch with
  | nil => simp
  | cons first others inductionHypothesis =>
      cases others with
      | nil => simp
      | cons second others =>
          rw [joinedWords_cons_cons, List.forall_mem_append,
            List.forall_mem_cons, List.forall_mem_cons, inductionHypothesis]
          simp only [acceptsDelimiter, true_and]

theorem isValid_words_iff (statement : Statement) :
    (∀ word ∈ statement.words, word.IsValid) ↔
      ∀ operand ∈ statement.operands, operand.IsSpelled := by
  induction statement using Statement.induction with
  | assignment target value =>
      simp only [words, operands, List.forall_mem_cons,
        Word.isValid_identifier, Word.isValid_assignment, true_and,
        value.isValid_words_iff]
      exact Iff.rfl
  | withoutElse condition thenBranch thenHypothesis =>
      rw [words, operands, ← joinedWords]
      simp only [List.forall_mem_cons, List.forall_mem_append,
        Word.isValid_ofKeyword, condition.isValid_words_iff,
        forall_mem_joinedWords_iff Word.isValid_delimiter,
        List.forall_mem_flatMap, true_and, and_assoc]
      rw [forall₂_congr thenHypothesis]
  | withElse condition thenBranch elseBranch thenHypothesis elseHypothesis =>
      rw [words, operands, ← joinedWords, ← joinedWords]
      simp only [List.forall_mem_cons, List.forall_mem_append,
        Word.isValid_ofKeyword, condition.isValid_words_iff,
        forall_mem_joinedWords_iff Word.isValid_delimiter,
        List.forall_mem_flatMap, true_and, and_assoc]
      rw [forall₂_congr thenHypothesis, forall₂_congr elseHypothesis]

end Statement

/-! ## Programs -/

namespace Program

/-- The words of a program, with a delimiter behind every statement. -/
def words (program : Program) : List Word :=
  program.statements.flatMap fun statement =>
    statement.words ++ [Word.delimiter]

/-- The operands of a program, its targets as names among them. -/
def operands (program : Program) : List Operand :=
  program.statements.flatMap Statement.operands

/-- The expressions that a program assigns. -/
def values (program : Program) : List Expression :=
  program.statements.flatMap Statement.values

theorem isValid_words_iff (program : Program) :
    (∀ word ∈ program.words, word.IsValid) ↔
      ∀ operand ∈ program.operands, operand.IsSpelled := by
  unfold words operands
  rw [List.forall_mem_flatMap, List.forall_mem_flatMap]
  apply forall₂_congr
  intro statement _
  rw [List.forall_mem_append, List.forall_mem_singleton,
    statement.isValid_words_iff]
  simp only [Word.isValid_delimiter, and_true]

theorem words_eq_joinedWords
    {program : Program}
    (nonempty : program.statements ≠ []) :
    program.words =
      Statement.joinedWords program.statements ++ [Word.delimiter] := by
  obtain ⟨statements⟩ := program
  unfold words
  induction statements with
  | nil => exact absurd rfl nonempty
  | cons first others inductionHypothesis =>
      cases others with
      | nil => simp
      | cons second others =>
          have others_eq := inductionHypothesis (by simp)
          rw [List.flatMap_cons, others_eq, Statement.joinedWords_cons_cons]
          simp

end Program

end ConditionalAssignment
