import ConditionalAssignment.Program.Layout
import ConditionalAssignment.Proofs.Grammar.Words
import ConditionalAssignment.Proofs.Lexing.Munch
import ConditionalAssignment.Proofs.Tree.Leaves
import ConditionalAssignment.Proofs.Tree.Outline

/-!
# The lines of a program

The names and numbers of a program that is read from a text hold no line feed,
so its canonical text has one line for each top-level statement, and the outline
of its tree has one line for each node.
-/

namespace ConditionalAssignment

/-! ## Words -/

/-- A text without blanks is a line. -/
theorem isLine_of_forall_isBlank
    {text : String}
    (noBlank : ∀ character ∈ text.toList, isBlank character = false) :
    IsLine text := by
  intro member
  have impossible := noBlank '\n' member
  cases impossible

theorem IsName.isLine {text : String} (isName : IsName text) : IsLine text := by
  apply isLine_of_forall_isBlank
  intro character member
  exact isBlank_of_isAlphanum (isName.isAlphanum_of_mem character member)

theorem IsNumber.isLine
    {text : String}
    (isNumber : IsNumber text) :
    IsLine text := by
  apply isLine_of_forall_isBlank
  intro character member
  rcases isNumber.isAlphanum_or_of_mem character member with
    isAlphanum | isMark
  · exact isBlank_of_isAlphanum isAlphanum
  · simp only [List.mem_cons, List.not_mem_nil, or_false] at isMark
    rcases isMark with rfl | rfl | rfl <;> rfl

/-- The text of a valid word is a line. -/
theorem Word.IsValid.isLine
    {word : Word}
    (isValid : word.IsValid) :
    IsLine word.text := by
  obtain ⟨kind, text⟩ := word
  cases kind with
  | identifier => exact IsName.isLine isValid
  | constant => exact IsNumber.isLine isValid
  | assignment =>
      obtain rfl : text = ":=" := isValid
      decide
  | comparison =>
      obtain ⟨operator, rfl⟩ := isValid
      cases operator <;> decide
  | arithmetic =>
      obtain ⟨operator, rfl⟩ := isValid
      cases operator <;> decide
  | keyword keyword =>
      obtain rfl : text = keyword.spelling := isValid
      cases keyword <;> decide
  | delimiter =>
      obtain rfl : text = ";" := isValid
      decide
  | openBracket =>
      obtain ⟨bracket, rfl⟩ := isValid
      cases bracket <;> decide
  | closeBracket =>
      obtain ⟨bracket, rfl⟩ := isValid
      cases bracket <;> decide

/-- The text of an operand that is spelled as such is a line. -/
theorem Operand.IsSpelled.isLine
    {operand : Operand}
    (isSpelled : operand.IsSpelled) :
    IsLine operand.text := by
  cases operand with
  | identifier text => exact IsName.isLine isSpelled
  | constant text => exact IsNumber.isLine isSpelled

/-! ## Layouts -/

/-- The layout of spelled operands is a line. -/
theorem Term.isLine_layout
    {term : Term}
    (spelled : ∀ operand ∈ term.operands, operand.IsSpelled) :
    IsLine term.layout := by
  induction term using Term.induction with
  | operand value =>
      rw [operands, List.forall_mem_singleton] at spelled
      rw [layout]
      exact spelled.isLine
  | operator sign =>
      rw [layout]
      exact (Word.isValid_arithmetic sign).isLine
  | group bracket inner inductionHypothesis =>
      rw [operands, List.forall_mem_flatMap] at spelled
      have innerIsLine :
          IsLine (" ".intercalate (inner.map Term.layout)) := by
        apply isLine_intercalate (by decide)
        rw [List.forall_mem_map]
        intro term member
        exact inductionHypothesis term member (spelled term member)
      rw [layout]
      simp only [isLine_append, isLine_singleton]
      refine ⟨⟨?_, innerIsLine⟩, ?_⟩ <;> cases bracket <;> decide

theorem Expression.isLine_layout
    {expression : Expression}
    (spelled : ∀ operand ∈ expression.operands, operand.IsSpelled) :
    IsLine expression.layout := by
  rw [operands, List.forall_mem_flatMap] at spelled
  apply isLine_intercalate (by decide)
  rw [List.forall_mem_map]
  intro term member
  exact Term.isLine_layout (spelled term member)

theorem Comparison.isLine_layout
    {comparison : Comparison}
    (leftSpelled : comparison.left.IsSpelled)
    (rightSpelled : comparison.right.IsSpelled) :
    IsLine comparison.layout := by
  unfold layout
  simp only [isLine_append]
  have signIsLine := (Word.isValid_comparison comparison.operator).isLine
  exact ⟨⟨⟨⟨leftSpelled.isLine, by decide⟩, signIsLine⟩, by decide⟩,
    rightSpelled.isLine⟩

namespace Statement

/-- The statements of a branch are laid out on one line. -/
theorem isLine_layout_joined
    {branch : List Statement}
    (areLines : ∀ statement ∈ branch, IsLine statement.layout) :
    IsLine ("; ".intercalate (branch.map layout)) := by
  apply isLine_intercalate (by decide)
  rw [List.forall_mem_map]
  exact areLines

/-- A statement is laid out on one line. -/
theorem isLine_layout
    {statement : Statement}
    (spelled : ∀ operand ∈ statement.operands, operand.IsSpelled) :
    IsLine statement.layout := by
  induction statement using Statement.induction with
  | assignment target value =>
      rw [operands, List.forall_mem_cons] at spelled
      rw [layout]
      simp only [isLine_append]
      exact ⟨⟨spelled.1.isLine, by decide⟩, Expression.isLine_layout spelled.2⟩
  | withoutElse condition thenBranch thenHypothesis =>
      rw [operands, List.forall_mem_cons, List.forall_mem_cons,
        List.forall_mem_flatMap] at spelled
      obtain ⟨leftSpelled, rightSpelled, thenSpelled⟩ := spelled
      have thenIsLine :=
        isLine_layout_joined fun statement member =>
          thenHypothesis statement member (thenSpelled statement member)
      have conditionIsLine :=
        Comparison.isLine_layout leftSpelled rightSpelled
      rw [layout]
      simp only [isLine_append]
      exact ⟨⟨⟨by decide, conditionIsLine⟩, by decide⟩, thenIsLine⟩
  | withElse condition thenBranch elseBranch thenHypothesis elseHypothesis =>
      rw [operands, List.forall_mem_cons, List.forall_mem_cons,
        List.forall_mem_append, List.forall_mem_flatMap,
        List.forall_mem_flatMap] at spelled
      obtain ⟨leftSpelled, rightSpelled, thenSpelled, elseSpelled⟩ := spelled
      have thenIsLine :=
        isLine_layout_joined fun statement member =>
          thenHypothesis statement member (thenSpelled statement member)
      have elseIsLine :=
        isLine_layout_joined fun statement member =>
          elseHypothesis statement member (elseSpelled statement member)
      have conditionIsLine :=
        Comparison.isLine_layout leftSpelled rightSpelled
      rw [layout]
      simp only [isLine_append]
      exact ⟨⟨⟨⟨⟨by decide, conditionIsLine⟩, by decide⟩, thenIsLine⟩,
        by decide⟩, elseIsLine⟩

end Statement

namespace Program

/-- The canonical text of a program has one line for each top-level
statement. -/
theorem lineCount_layout
    {program : Program}
    (spelled : ∀ operand ∈ program.operands, operand.IsSpelled) :
    lineCount program.layout = program.statements.length := by
  have layout_eq :
      program.layout =
        String.join
          ((program.statements.map fun statement => statement.layout ++ ";").map
            (· ++ "\n")) := by
    have line_eq (statement : Statement) :
        statement.layout ++ ";\n" = statement.layout ++ ";" ++ "\n" := by
      rw [String.append_assoc]
      rfl
    simp only [layout, line_eq, List.map_map, Function.comp_def]
  rw [operands, List.forall_mem_flatMap] at spelled
  rw [layout_eq, lineCount_join, List.length_map]
  rw [List.forall_mem_map]
  intro statement member
  rw [isLine_append]
  exact ⟨Statement.isLine_layout (spelled statement member), by decide⟩

/-- The labels of the tree of a program are lines. -/
theorem isLine_of_mem_labels_tree
    {program : Program}
    (spelled : ∀ operand ∈ program.operands, operand.IsSpelled) :
    ∀ label ∈ program.tree.labels, IsLine label := by
  rw [labels_tree, leaves_tree, Word.spellings, List.forall_mem_map]
  intro word member
  have valid := program.isValid_words_iff.mpr spelled
  exact (valid word (List.mem_filter.mp member).1).isLine

/-- The outline of a program has one line for each node of its tree. -/
theorem lineCount_outline
    {program : Program}
    (spelled : ∀ operand ∈ program.operands, operand.IsSpelled) :
    lineCount program.tree.outline = program.tree.size :=
  Tree.lineCount_outline (isLine_of_mem_labels_tree spelled)

end Program

end ConditionalAssignment
