import ConditionalAssignment.Program.Layout
import ConditionalAssignment.Proofs.Grammar.Words
import ConditionalAssignment.Proofs.Lexing.Spelling

/-!
# The layout spells the words

The canonical text of a program spells the words of the program, if they are
valid.  It therefore gives exactly these words when it is split into tokens.
The proof follows the layout, which puts a blank or a bracket wherever two
words would otherwise run together.
-/

namespace ConditionalAssignment

/-! ## Putting texts together -/

namespace Spells

/-- A valid word spells itself. -/
theorem singleton
    {word : Word}
    (isValid : word.IsValid) :
    Spells word.text.toList [word] := by
  have spells := cons isValid (Stops.nil _) nil
  rwa [List.append_nil] at spells

/-- A valid word and a space in front. -/
theorem cons_space
    {first : Word}
    {rest : List Char}
    {others : List Word}
    (isValid : first.IsValid)
    (spells : Spells rest others) :
    Spells (first.text.toList ++ ' ' :: rest) (first :: others) := by
  apply cons isValid _ spells.prepend_space
  exact (Stops.cons (by decide) rest).mono fun _ =>
    Word.numeral_clings_of_clings

/-- A space between two texts keeps their words apart. -/
theorem append_space
    {first second : List Char}
    {firstWords secondWords : List Word}
    (firstSpells : Spells first firstWords)
    (secondSpells : Spells second secondWords) :
    Spells (first ++ ' ' :: second) (firstWords ++ secondWords) :=
  firstSpells.append secondSpells.prepend_space (Stops.cons (by decide) second)

/-- Texts with a separator between them spell their words with the words of the
separator between them. -/
theorem intercalate
    {item : Type}
    {text : item → List Char}
    {words : item → List Word}
    {separator : List Char}
    {between : List Word}
    (stops : ∀ rest, Stops Numeral.clings (separator ++ rest))
    (separates : ∀ {rest : List Char} {others : List Word},
      Spells rest others → Spells (separator ++ rest) (between ++ others))
    {items : List item}
    (spell : ∀ found ∈ items, Spells (text found) (words found)) :
    Spells (separator.intercalate (items.map text))
      (between.intercalate (items.map words)) := by
  induction items with
  | nil => exact nil
  | cons first others inductionHypothesis =>
      rw [List.forall_mem_cons] at spell
      have othersSpell := inductionHypothesis spell.2
      cases others with
      | nil =>
          rw [List.map_singleton, List.map_singleton,
            List.intercalate_singleton, List.intercalate_singleton]
          exact spell.1
      | cons second others =>
          simp only [List.map_cons, List.intercalate_cons_cons,
            List.append_assoc] at othersSpell ⊢
          exact spell.1.append (separates othersSpell) (stops _)

end Spells

/-! ## Expressions -/

theorem Expression.words_eq_intercalate (expression : Expression) :
    expression.words = [].intercalate (expression.map Term.words) := by
  induction expression with
  | nil => rfl
  | cons first others inductionHypothesis =>
      rw [words_cons, inductionHypothesis]
      cases others with
      | nil => simp
      | cons second others => simp

/-- Terms with a space between them spell their words. -/
theorem Expression.spells_layout_of_terms
    {expression : Expression}
    (spell : ∀ term ∈ expression, Spells term.layout.toList term.words) :
    Spells expression.layout.toList expression.words := by
  rw [layout, String.toList_intercalate, List.map_map, words_eq_intercalate]
  apply Spells.intercalate _ _ spell
  · intro rest
    exact Stops.cons (by decide) rest
  · intro rest others spells
    exact spells.prepend_space

theorem Term.spells_layout
    {term : Term}
    (valid : ∀ word ∈ term.words, word.IsValid) :
    Spells term.layout.toList term.words := by
  induction term using Term.induction with
  | operand value =>
      rw [words_operand, List.forall_mem_singleton] at valid
      rw [words_operand, layout]
      cases value <;> exact .singleton valid
  | operator sign =>
      rw [words_operator, layout]
      exact .singleton (Word.isValid_arithmetic sign)
  | group bracket inner inductionHypothesis =>
      have closingSpells :=
        Spells.singleton (Word.isValid_closing bracket)
      have closingStops :
          Stops Numeral.clings
            (String.singleton bracket.closing).toList := by
        rw [String.toList_singleton]
        apply Stops.cons
        cases bracket <;> decide
      have innerSpells : Spells (Expression.layout inner).toList _ :=
        Expression.spells_layout_of_terms fun term member =>
          inductionHypothesis term member fun word wordMember => by
            apply valid
            rw [words_group]
            simp only [List.mem_cons, List.mem_append]
            exact Or.inr (Or.inl (List.mem_flatMap.mpr ⟨_, member, wordMember⟩))
      rw [layout, words_group, ← Expression.layout, String.toList_append,
        String.toList_append, List.append_assoc]
      apply Spells.cons (Word.isValid_opening bracket)
      · intro character _
        rfl
      · exact innerSpells.append closingSpells closingStops

theorem Expression.spells_layout
    {expression : Expression}
    (valid : ∀ word ∈ expression.words, word.IsValid) :
    Spells expression.layout.toList expression.words := by
  apply spells_layout_of_terms
  intro term member
  exact Term.spells_layout (List.forall_mem_flatMap.mp valid term member)

theorem Comparison.spells_layout
    {comparison : Comparison}
    (valid : ∀ word ∈ comparison.words, word.IsValid) :
    Spells comparison.layout.toList comparison.words := by
  simp only [words, List.forall_mem_cons] at valid
  obtain ⟨leftValid, signValid, rightValid, _⟩ := valid
  have spells :=
    Spells.cons_space leftValid
      (Spells.cons_space signValid (Spells.singleton rightValid))
  have text_eq (operand : Operand) : operand.word.text = operand.text := by
    cases operand <;> rfl
  rw [text_eq, text_eq] at spells
  simpa [layout, words] using spells

/-! ## Statements -/

namespace Statement

/-- Statements with a delimiter between them spell the words of a branch. -/
theorem spells_layout_joined
    {branch : List Statement}
    (spell : ∀ statement ∈ branch,
      Spells statement.layout.toList statement.words) :
    Spells ("; ".intercalate (branch.map layout)).toList
      (joinedWords branch) := by
  rw [String.toList_intercalate, List.map_map]
  apply Spells.intercalate _ _ spell
  · intro rest
    exact Stops.cons (by decide) _
  · intro rest others spells
    exact spells.prepend_space.cons Word.isValid_delimiter
      (Stops.cons (by decide) _)

/-- A condition and a branch behind it. -/
theorem spells_head
    {condition : Comparison}
    {branch : List Char}
    {branchWords : List Word}
    (valid : ∀ word ∈ condition.words, word.IsValid)
    (branchSpells : Spells branch branchWords) :
    Spells (("if " ++ condition.layout ++ " then ").toList ++ branch)
      (Word.ofKeyword .ifWord ::
        (condition.words ++ Word.ofKeyword .thenWord :: branchWords)) := by
  have spells :=
    Spells.cons_space (Word.isValid_ofKeyword .ifWord)
      ((Comparison.spells_layout valid).append_space
        (Spells.cons_space (Word.isValid_ofKeyword .thenWord) branchSpells))
  simpa [Word.ofKeyword, Keyword.spelling] using spells

theorem spells_layout
    {statement : Statement}
    (valid : ∀ word ∈ statement.words, word.IsValid) :
    Spells statement.layout.toList statement.words := by
  induction statement using Statement.induction with
  | assignment target value =>
      rw [words, List.forall_mem_cons, List.forall_mem_cons] at valid
      have spells :=
        Spells.cons_space valid.1
          (Spells.cons_space valid.2.1
            (Expression.spells_layout valid.2.2))
      rw [words, layout]
      simpa [Word.assignment] using spells
  | withoutElse condition thenBranch thenHypothesis =>
      rw [words, ← joinedWords] at valid ⊢
      simp only [List.forall_mem_cons, List.forall_mem_append,
        forall_mem_joinedWords_iff Word.isValid_delimiter] at valid
      obtain ⟨_, conditionValid, _, thenValid⟩ := valid
      have thenSpells :=
        spells_layout_joined fun statement member =>
          thenHypothesis statement member (thenValid statement member)
      rw [layout, String.toList_append]
      exact spells_head conditionValid thenSpells
  | withElse condition thenBranch elseBranch thenHypothesis elseHypothesis =>
      rw [words, ← joinedWords, ← joinedWords] at valid ⊢
      simp only [List.forall_mem_cons, List.forall_mem_append,
        forall_mem_joinedWords_iff Word.isValid_delimiter] at valid
      obtain ⟨_, conditionValid, _, thenValid, _, elseValid⟩ := valid
      have thenSpells :=
        spells_layout_joined fun statement member =>
          thenHypothesis statement member (thenValid statement member)
      have elseSpells :=
        spells_layout_joined fun statement member =>
          elseHypothesis statement member (elseValid statement member)
      have spells :=
        spells_head conditionValid
          (thenSpells.append_space
            (Spells.cons_space (Word.isValid_ofKeyword .elseWord) elseSpells))
      rw [layout]
      simpa [Word.ofKeyword, Keyword.spelling] using spells

end Statement

/-! ## Programs -/

/-- The canonical text of a program spells the words of the program. -/
theorem Program.spells_layout
    {program : Program}
    (valid : ∀ word ∈ program.words, word.IsValid) :
    Spells program.layout.toList program.words := by
  obtain ⟨statements⟩ := program
  unfold words layout at *
  rw [String.toList_join, List.flatMap_map]
  induction statements with
  | nil => exact Spells.nil
  | cons first others inductionHypothesis =>
      simp only [List.flatMap_cons, List.forall_mem_append] at valid ⊢
      have firstSpells := Statement.spells_layout valid.1.1
      have othersSpell := inductionHypothesis valid.2
      have lineEnd : IsBlank ['\n'] := by
        intro character member
        rw [List.mem_singleton.mp member]
        rfl
      have spells :=
        firstSpells.append
          (.cons Word.isValid_delimiter (Stops.cons (by decide) _)
            (othersSpell.prepend_blank lineEnd))
          (Stops.cons (by decide) _)
      simpa [Word.delimiter] using spells

end ConditionalAssignment
