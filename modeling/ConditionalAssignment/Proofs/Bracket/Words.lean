import ConditionalAssignment.Proofs.Bracket.Balance
import ConditionalAssignment.Proofs.Grammar.Canonical
import ConditionalAssignment.Proofs.Lexing.Spelling

/-!
# The brackets of words

Every bracket of a text that spells valid words is a word of its own, so the
brackets of the text are those of its words.  The words of a program are
balanced, since only groups have brackets and the layout writes both, and so are
valid words that read as statements.
-/

namespace ConditionalAssignment

/-! ## Characters that are no brackets -/

theorem isBracket_eq_false
    {test : Char → Bool}
    (rejects : ∀ bracket : Bracket,
      test bracket.opening = false ∧ test bracket.closing = false)
    {character : Char}
    (accepted : test character = true) :
    isBracket character = false := by
  unfold isBracket
  cases opened : Bracket.ofOpening? character with
  | some bracket =>
      rw [Bracket.ofOpening?_eq_some_iff.mp opened,
        (rejects bracket).1] at accepted
      cases accepted
  | none =>
      cases closed : Bracket.ofClosing? character with
      | none => rfl
      | some bracket =>
          rw [Bracket.ofClosing?_eq_some_iff.mp closed,
            (rejects bracket).2] at accepted
          cases accepted

theorem isBracket_of_isAlphanum
    {character : Char}
    (isAlphanum : character.isAlphanum = true) :
    isBracket character = false :=
  isBracket_eq_false (fun bracket => by cases bracket <;> decide) isAlphanum

theorem IsBlank.bracketsOf_eq_nil
    {text : List Char}
    (isBlank : IsBlank text) :
    bracketsOf text = [] := by
  apply ConditionalAssignment.bracketsOf_eq_nil
  intro character member
  exact isBracket_eq_false (fun bracket => by cases bracket <;> decide)
    (isBlank character member)

theorem IsName.bracketsOf_eq_nil
    {text : String}
    (isName : IsName text) :
    bracketsOf text.toList = [] := by
  apply ConditionalAssignment.bracketsOf_eq_nil
  intro character member
  exact isBracket_of_isAlphanum (isName.isAlphanum_of_mem character member)

theorem IsNumber.bracketsOf_eq_nil
    {text : String}
    (isNumber : IsNumber text) :
    bracketsOf text.toList = [] := by
  apply ConditionalAssignment.bracketsOf_eq_nil
  intro character member
  rcases isNumber.isAlphanum_or_of_mem character member with
    isAlphanum | isMark
  · exact isBracket_of_isAlphanum isAlphanum
  · simp only [List.mem_cons, List.not_mem_nil, or_false] at isMark
    rcases isMark with rfl | rfl | rfl <;> rfl

/-! ## The brackets of words -/

namespace Word

/-- The brackets in the texts of the words, in order. -/
def brackets (words : List Word) : List Char :=
  words.flatMap fun word => bracketsOf word.text.toList

@[simp] theorem brackets_nil : brackets [] = [] :=
  rfl

@[simp] theorem brackets_cons (first : Word) (others : List Word) :
    brackets (first :: others) =
      bracketsOf first.text.toList ++ brackets others :=
  List.flatMap_cons

@[simp] theorem brackets_append (first second : List Word) :
    brackets (first ++ second) = brackets first ++ brackets second :=
  List.flatMap_append

/-- Only the brackets of groups contain brackets. -/
theorem IsValid.bracketsOf_eq_nil
    {word : Word}
    (isValid : word.IsValid)
    (noOpening : word.kind ≠ .openBracket)
    (noClosing : word.kind ≠ .closeBracket) :
    bracketsOf word.text.toList = [] := by
  obtain ⟨kind, text⟩ := word
  cases kind with
  | identifier => exact IsName.bracketsOf_eq_nil isValid
  | constant => exact IsNumber.bracketsOf_eq_nil isValid
  | assignment =>
      obtain rfl : text = ":=" := isValid
      rfl
  | comparison =>
      obtain ⟨operator, rfl⟩ := isValid
      cases operator <;> rfl
  | arithmetic =>
      obtain ⟨operator, rfl⟩ := isValid
      cases operator <;> rfl
  | keyword keyword =>
      obtain rfl : text = keyword.spelling := isValid
      cases keyword <;> rfl
  | delimiter =>
      obtain rfl : text = ";" := isValid
      rfl
  | openBracket => exact absurd rfl noOpening
  | closeBracket => exact absurd rfl noClosing

end Word

/-- The brackets of a text are those of the words that it spells. -/
theorem Spells.bracketsOf_eq
    {text : List Char}
    {words : List Word}
    (spells : Spells text words) :
    bracketsOf text = Word.brackets words := by
  induction spells with
  | blank isBlank => exact isBlank.bracketsOf_eq_nil
  | word isBlank _ _ _ inductionHypothesis =>
      rw [bracketsOf_append, bracketsOf_append, isBlank.bracketsOf_eq_nil,
        inductionHypothesis, Word.brackets_cons, List.nil_append]

/-! ## The words of a program are balanced -/

theorem Balanced.flatMap
    {item : Type}
    {words : item → List Word}
    {items : List item}
    (balanced : ∀ found ∈ items, Balanced (Word.brackets (words found))) :
    Balanced (Word.brackets (items.flatMap words)) := by
  induction items with
  | nil => exact .nil
  | cons first others inductionHypothesis =>
      rw [List.forall_mem_cons] at balanced
      rw [List.flatMap_cons, Word.brackets_append]
      exact balanced.1.append (inductionHypothesis balanced.2)

theorem Word.IsValid.balanced
    {word : Word}
    (isValid : word.IsValid)
    (noOpening : word.kind ≠ .openBracket)
    (noClosing : word.kind ≠ .closeBracket)
    {words : List Word}
    (balanced : Balanced (Word.brackets words)) :
    Balanced (Word.brackets (word :: words)) := by
  rw [Word.brackets_cons, isValid.bracketsOf_eq_nil noOpening noClosing]
  exact balanced

theorem Operand.balanced_cons
    {operand : Operand}
    (isSpelled : operand.IsSpelled)
    {words : List Word}
    (balanced : Balanced (Word.brackets words)) :
    Balanced (Word.brackets (operand.word :: words)) := by
  apply Word.IsValid.balanced (operand.isValid_word.mpr isSpelled) _ _ balanced
  · cases operand <;> simp [word]
  · cases operand <;> simp [word]

theorem Term.balanced_words
    {term : Term}
    (spelled : ∀ operand ∈ term.operands, operand.IsSpelled) :
    Balanced (Word.brackets term.words) := by
  induction term using Term.induction with
  | operand value =>
      rw [operands, List.forall_mem_singleton] at spelled
      rw [words_operand]
      exact Operand.balanced_cons spelled .nil
  | operator sign =>
      rw [words_operator]
      exact (Word.isValid_arithmetic sign).balanced (by simp) (by simp) .nil
  | group bracket inner inductionHypothesis =>
      rw [operands, List.forall_mem_flatMap] at spelled
      have innerBalanced : Balanced (Word.brackets (Expression.words inner)) :=
        Balanced.flatMap fun term member =>
          inductionHypothesis term member (spelled term member)
      have opening_eq :
          bracketsOf (Word.opening bracket).text.toList =
            [bracket.opening] := by
        cases bracket <;> rfl
      have closing_eq :
          bracketsOf (Word.closing bracket).text.toList =
            [bracket.closing] := by
        cases bracket <;> rfl
      rw [words_group, Word.brackets_cons, Word.brackets_append,
        Word.brackets_cons, opening_eq, closing_eq]
      exact .group innerBalanced .nil

theorem Expression.balanced_words
    {expression : Expression}
    (spelled : ∀ operand ∈ expression.operands, operand.IsSpelled) :
    Balanced (Word.brackets expression.words) := by
  apply Balanced.flatMap
  intro term member
  exact Term.balanced_words (List.forall_mem_flatMap.mp spelled term member)

theorem Comparison.balanced_append
    {comparison : Comparison}
    (leftSpelled : comparison.left.IsSpelled)
    (rightSpelled : comparison.right.IsSpelled)
    {words : List Word}
    (balanced : Balanced (Word.brackets words)) :
    Balanced (Word.brackets (comparison.words ++ words)) := by
  apply Operand.balanced_cons leftSpelled
  apply (Word.isValid_comparison _).balanced (by simp) (by simp)
  exact Operand.balanced_cons rightSpelled balanced

namespace Statement

theorem balanced_joinedWords
    {branch : List Statement}
    (balanced : ∀ statement ∈ branch,
      Balanced (Word.brackets statement.words)) :
    Balanced (Word.brackets (joinedWords branch)) := by
  induction branch with
  | nil => exact .nil
  | cons first others inductionHypothesis =>
      rw [List.forall_mem_cons] at balanced
      cases others with
      | nil =>
          rw [joinedWords_singleton]
          exact balanced.1
      | cons second others =>
          rw [joinedWords_cons_cons, Word.brackets_append]
          apply balanced.1.append
          apply Word.isValid_delimiter.balanced (by simp [Word.delimiter])
            (by simp [Word.delimiter])
          exact inductionHypothesis balanced.2

theorem balanced_words
    {statement : Statement}
    (spelled : ∀ operand ∈ statement.operands, operand.IsSpelled) :
    Balanced (Word.brackets statement.words) := by
  have keyword_balanced
      (keyword : Keyword)
      {words : List Word}
      (balanced : Balanced (Word.brackets words)) :
      Balanced (Word.brackets (Word.ofKeyword keyword :: words)) :=
    (Word.isValid_ofKeyword keyword).balanced (by simp [Word.ofKeyword])
      (by simp [Word.ofKeyword]) balanced
  induction statement using Statement.induction with
  | assignment target value =>
      rw [operands, List.forall_mem_cons] at spelled
      rw [words]
      apply Operand.balanced_cons spelled.1
      apply Word.isValid_assignment.balanced (by simp [Word.assignment])
        (by simp [Word.assignment])
      exact Expression.balanced_words spelled.2
  | withoutElse condition thenBranch thenHypothesis =>
      rw [operands, List.forall_mem_cons, List.forall_mem_cons,
        List.forall_mem_flatMap] at spelled
      obtain ⟨leftSpelled, rightSpelled, thenSpelled⟩ := spelled
      rw [words, ← joinedWords]
      apply keyword_balanced
      apply Comparison.balanced_append leftSpelled rightSpelled
      apply keyword_balanced
      apply balanced_joinedWords
      intro statement member
      exact thenHypothesis statement member (thenSpelled statement member)
  | withElse condition thenBranch elseBranch thenHypothesis elseHypothesis =>
      rw [operands, List.forall_mem_cons, List.forall_mem_cons,
        List.forall_mem_append, List.forall_mem_flatMap,
        List.forall_mem_flatMap] at spelled
      obtain ⟨leftSpelled, rightSpelled, thenSpelled, elseSpelled⟩ := spelled
      rw [words, ← joinedWords, ← joinedWords]
      apply keyword_balanced
      apply Comparison.balanced_append leftSpelled rightSpelled
      apply keyword_balanced
      rw [Word.brackets_append]
      apply Balanced.append
      · apply balanced_joinedWords
        intro statement member
        exact thenHypothesis statement member (thenSpelled statement member)
      · apply keyword_balanced
        apply balanced_joinedWords
        intro statement member
        exact elseHypothesis statement member (elseSpelled statement member)

end Statement

/-- The words of every program are balanced, also of one that no text reads
as. -/
theorem Program.balanced_words
    {program : Program}
    (spelled : ∀ operand ∈ program.operands, operand.IsSpelled) :
    Balanced (Word.brackets program.words) := by
  apply Balanced.flatMap
  intro statement member
  rw [Word.brackets_append]
  apply Balanced.append
  · exact Statement.balanced_words
      (List.forall_mem_flatMap.mp spelled statement member)
  · exact .nil

/-! ## What is read is balanced -/

theorem Comparison.balanced_words
    {comparison : Comparison}
    (valid : ∀ word ∈ comparison.words, word.IsValid) :
    Balanced (Word.brackets comparison.words) := by
  obtain ⟨leftSpelled, rightSpelled⟩ := comparison.isValid_words_iff.mp valid
  rw [← List.append_nil comparison.words]
  exact Comparison.balanced_append leftSpelled rightSpelled .nil

/-- A delimiter, or nothing in its place, has no brackets. -/
theorem Ends.balanced
    {termination : Termination}
    {ending rest : List Word}
    (ends : Ends termination ending rest)
    (valid : ∀ word ∈ ending, word.IsValid) :
    Balanced (Word.brackets ending) := by
  rcases ends with delimited | ⟨_, rfl, _⟩
  · obtain ⟨delimiter, rfl, isDelimiter⟩ :=
      List.map_eq_singleton_iff.mp delimited
    rw [List.forall_mem_singleton] at valid
    exact valid.balanced (by simp [isDelimiter]) (by simp [isDelimiter]) .nil
  · exact .nil

namespace Statement

/-- Valid words that read as a simple statement are balanced. -/
theorem ReadsSimple.balanced
    {words : List Word}
    {statement : Statement}
    (reads : ReadsSimple words statement)
    (valid : ∀ word ∈ words, word.IsValid) :
    Balanced (Word.brackets words) := by
  obtain ⟨_, rfl⟩ := reads.alternates valid
  exact balanced_words (statement.isValid_words_iff.mp valid)

/-- Valid words that read as a range are balanced, however it ends. -/
theorem ReadsRange.balanced
    {termination : Termination}
    {words : List Word}
    {statements : List Statement}
    (reads : ReadsRange termination words statements)
    (valid : ∀ word ∈ words, word.IsValid) :
    Balanced (Word.brackets words) := by
  induction reads with
  | nil => exact .nil
  | simple simpleReads ends _ _ restHypothesis =>
      simp only [List.forall_mem_append] at valid
      obtain ⟨firstValid, endingValid, restValid⟩ := valid
      rw [Word.brackets_append, Word.brackets_append]
      have restBalanced := restHypothesis restValid
      exact (simpleReads.balanced firstValid).append
        ((ends.balanced endingValid).append restBalanced)
  | choice _ elseReads ends _ _ thenHypothesis restHypothesis =>
      simp only [List.forall_mem_cons, List.forall_mem_append] at valid
      obtain ⟨ifValid, conditionValid, thenWordValid, thenValid, elseWordValid,
        elseValid, endingValid, restValid⟩ := valid
      have behindBalanced :=
        (elseReads.balanced elseValid).append
          ((ends.balanced endingValid).append (restHypothesis restValid))
      rw [← Word.brackets_append, ← Word.brackets_append] at behindBalanced
      have elseBalanced :=
        elseWordValid.balanced (by simp) (by simp) behindBalanced
      have branchesBalanced := (thenHypothesis thenValid).append elseBalanced
      rw [← Word.brackets_append] at branchesBalanced
      have thenBalanced :=
        thenWordValid.balanced (by simp) (by simp) branchesBalanced
      have blockBalanced :=
        (Comparison.balanced_words conditionValid).append thenBalanced
      rw [← Word.brackets_append] at blockBalanced
      exact ifValid.balanced (by simp) (by simp) blockBalanced

end Statement

end ConditionalAssignment
