import ConditionalAssignment.Proofs.Grammar.Words

/-!
# Canonical programs

Not every program can be read from a text.  The names and numbers have to be
spelled as such, values and operators have to alternate, and conditionals may
nest only so far as the reader can tell their ends.  These conditions on a
program are described here without words, and the words of a program that
satisfies them read as that program.
-/

namespace ConditionalAssignment

/-! ## Expressions -/

namespace Expression

/-- Values and operators alternate, also inside groups, except that a group may
directly follow a value. -/
inductive Alternates : Expectation → Expression → Prop
  | finish : Alternates .operator []
  | operand {operand : Operand} {rest : Expression} :
      Alternates .operator rest →
        Alternates .value (.operand operand :: rest)
  | operator {operator : ArithmeticOperator} {rest : Expression} :
      Alternates .value rest →
        Alternates .operator (.operator operator :: rest)
  | group
      {expectation : Expectation}
      {bracket : Bracket}
      {inner rest : Expression} :
      Alternates .value inner → Alternates .operator rest →
        Alternates expectation (.group bracket inner :: rest)

/-- The words of an alternating expression read as that expression. -/
theorem Alternates.reads
    {expectation : Expectation}
    {expression : Expression}
    (alternates : Alternates expectation expression) :
    Reads expectation expression.words expression := by
  induction alternates with
  | finish => exact .finish
  | operand _ inductionHypothesis =>
      rw [words_cons, Term.words_operand]
      exact .operand inductionHypothesis
  | operator _ inductionHypothesis =>
      rw [words_cons, Term.words_operator]
      exact .operator (ArithmeticOperator.ofSymbol?_eq_some_iff.mpr rfl)
        inductionHypothesis
  | @group expectation bracket inner rest _ _ innerHypothesis restHypothesis =>
      have family_eq :
          Bracket.ofSpelling? (String.singleton bracket.opening) =
            some bracket := by
        simp [Bracket.ofSpelling?]
      have reads :
          Reads expectation
            (⟨.openBracket, String.singleton bracket.opening⟩ ::
              (words inner ++
                ⟨.closeBracket, String.singleton bracket.closing⟩ ::
                  words rest)) _ :=
        .group (by simp [family_eq]) innerHypothesis restHypothesis
      rw [family_eq, Option.getD_some] at reads
      simpa [Word.opening, Word.closing] using reads

/-- Valid words that read as an expression are the words of that expression,
and it alternates. -/
theorem Reads.alternates
    {expectation : Expectation}
    {readWords : List Word}
    {expression : Expression}
    (reads : Reads expectation readWords expression)
    (valid : ∀ word ∈ readWords, word.IsValid) :
    Alternates expectation expression ∧ readWords = expression.words := by
  induction reads with
  | finish => exact ⟨.finish, rfl⟩
  | operand _ inductionHypothesis =>
      rw [List.forall_mem_cons] at valid
      obtain ⟨alternates, rfl⟩ := inductionHypothesis valid.2
      exact ⟨.operand alternates, by simp⟩
  | operator found _ inductionHypothesis =>
      rw [List.forall_mem_cons] at valid
      obtain ⟨alternates, rfl⟩ := inductionHypothesis valid.2
      rw [ArithmeticOperator.ofSymbol?_eq_some_iff.mp found]
      exact ⟨.operator alternates, by simp⟩
  | unknownOperator notFound _ _ =>
      rw [List.forall_mem_cons] at valid
      obtain ⟨operator, rfl⟩ := valid.1
      rw [ArithmeticOperator.ofSymbol?_eq_some_iff.mpr rfl] at notFound
      cases notFound
  | group closes _ _ innerHypothesis restHypothesis =>
      simp only [List.forall_mem_cons, List.forall_mem_append] at valid
      obtain ⟨⟨bracket, rfl⟩, innerValid, ⟨closer, rfl⟩, restValid⟩ := valid
      obtain ⟨innerAlternates, rfl⟩ := innerHypothesis innerValid
      obtain ⟨restAlternates, rfl⟩ := restHypothesis restValid
      have closer_eq : closer = bracket := by
        simp only [String.toList_singleton, List.head?_cons,
          Bracket.ofSpelling?, Bracket.ofOpening?_opening, Option.map_some,
          Option.some.injEq] at closes
        rw [← Option.some.injEq, ← Bracket.ofClosing?_closing closer, closes,
          Bracket.ofClosing?_closing]
      subst closer_eq
      refine ⟨.group innerAlternates restAlternates, ?_⟩
      simp [Bracket.ofSpelling?, Word.opening, Word.closing]

/-- An expression holds neither a delimiter nor a reserved word. -/
theorem lacks_words
    {kind : TokenKind}
    (structural : kind.IsStructural)
    (expression : Expression) :
    Lacks kind expression.words := by
  have lacks_term (term : Term) : Lacks kind term.words := by
    induction term using Term.induction with
    | operand value => simp [Operand.kind_word_ne structural]
    | operator sign => cases structural <;> simp
    | group bracket inner inductionHypothesis =>
        have innerLacks : Lacks kind (words inner) :=
          List.forall_mem_flatMap.mpr inductionHypothesis
        cases structural <;>
          simp [innerLacks, Word.opening, Word.closing]
  exact List.forall_mem_flatMap.mpr fun term _ => lacks_term term

end Expression

/-! ## Statements -/

namespace Statement

/-- An assignment, or a conditional without else branch that governs exactly
one simple statement. -/
inductive IsSimple : Statement → Prop
  | assignment {target : String} {value : Expression} :
      IsSimple (.assignment target value)
  | conditional {condition : Comparison} {statement : Statement} :
      IsSimple statement →
        IsSimple (.conditional condition [statement] none)

/-- No conditional in the statement has an else branch. -/
inductive LacksElse : Statement → Prop
  | assignment {target : String} {value : Expression} :
      LacksElse (.assignment target value)
  | conditional {condition : Comparison} {thenBranch : List Statement} :
      (∀ statement ∈ thenBranch, LacksElse statement) →
        LacksElse (.conditional condition thenBranch none)

/-- The statements can be told apart in a text.  A conditional is simple, or it
has an else branch of one simple statement; behind it, none has an else
branch. -/
inductive IsSequence : List Statement → Prop
  | nil : IsSequence []
  | assignment
      {target : String}
      {value : Expression}
      {rest : List Statement} :
      IsSequence rest → IsSequence (.assignment target value :: rest)
  | simple
      {condition : Comparison}
      {thenBranch : List Statement}
      {elseBranch : Option (List Statement)}
      {rest : List Statement} :
      IsSimple (.conditional condition thenBranch elseBranch) →
        (∀ statement ∈ rest, LacksElse statement) → IsSequence rest →
          IsSequence (.conditional condition thenBranch elseBranch :: rest)
  | choice
      {condition : Comparison}
      {thenBranch rest : List Statement}
      {alternative : Statement} :
      thenBranch ≠ [] → IsSequence thenBranch → IsSimple alternative →
        (∀ statement ∈ rest, LacksElse statement) → IsSequence rest →
          IsSequence
            (.conditional condition thenBranch (some [alternative]) :: rest)

/-- No statement behind a conditional has an else branch. -/
theorem IsSequence.lacksElse_of_append
    {before after : List Statement}
    (isSequence : IsSequence (before ++ after))
    {statement : Statement}
    (member : statement ∈ before)
    (isConditional : statement.isConditional = true) :
    ∀ later ∈ after, LacksElse later := by
  induction before with
  | nil => cases member
  | cons first others inductionHypothesis =>
      cases isSequence with
      | assignment restSequence =>
          obtain rfl | member := List.mem_cons.mp member
          · cases isConditional
          · exact inductionHypothesis restSequence member
      | simple _ restLacks _ | choice _ _ _ restLacks _ =>
          exact (List.forall_mem_append.mp restLacks).2

/-- Every expression that the statement assigns alternates. -/
def AssignsAlternating (statement : Statement) : Prop :=
  ∀ value ∈ statement.values, Expression.Alternates .value value

@[simp] theorem assignsAlternating_assignment
    {target : String}
    {value : Expression} :
    (assignment target value).AssignsAlternating ↔
      Expression.Alternates .value value := by
  simp [AssignsAlternating, values]

@[simp] theorem assignsAlternating_withoutElse
    {condition : Comparison}
    {thenBranch : List Statement} :
    (conditional condition thenBranch none).AssignsAlternating ↔
      ∀ statement ∈ thenBranch, statement.AssignsAlternating := by
  rw [AssignsAlternating, values, List.forall_mem_flatMap]
  rfl

@[simp] theorem assignsAlternating_withElse
    {condition : Comparison}
    {thenBranch elseBranch : List Statement} :
    (conditional condition thenBranch (some elseBranch)).AssignsAlternating ↔
      (∀ statement ∈ thenBranch, statement.AssignsAlternating) ∧
        ∀ statement ∈ elseBranch, statement.AssignsAlternating := by
  rw [AssignsAlternating, values, List.forall_mem_append,
    List.forall_mem_flatMap, List.forall_mem_flatMap]
  rfl

/-- The words of a simple statement read as that statement. -/
theorem IsSimple.reads
    {statement : Statement}
    (isSimple : statement.IsSimple)
    (alternating : statement.AssignsAlternating) :
    ReadsSimple statement.words statement := by
  induction isSimple with
  | assignment =>
      rw [words]
      exact .assignment (assignsAlternating_assignment.mp alternating).reads
  | conditional _ inductionHypothesis =>
      rw [words, List.map_singleton, List.intercalate_singleton]
      apply ReadsSimple.conditional
      apply inductionHypothesis
      simpa using alternating

/-- Words that read as one statement without `else` read as a simple one. -/
theorem ReadsSimple.isSimple
    {readWords : List Word}
    {statement : Statement}
    (reads : ReadsSimple readWords statement) :
    statement.IsSimple := by
  induction reads with
  | assignment _ => exact .assignment
  | conditional _ inductionHypothesis => exact .conditional inductionHypothesis

/-- Valid words that read as a simple statement are the words of that
statement. -/
theorem ReadsSimple.alternates
    {readWords : List Word}
    {statement : Statement}
    (reads : ReadsSimple readWords statement)
    (valid : ∀ word ∈ readWords, word.IsValid) :
    statement.AssignsAlternating ∧ readWords = statement.words := by
  induction reads with
  | assignment valueReads =>
      rw [List.forall_mem_cons, List.forall_mem_cons] at valid
      obtain ⟨_, rfl, valueValid⟩ := valid
      obtain ⟨alternates, rfl⟩ := valueReads.alternates valueValid
      refine ⟨assignsAlternating_assignment.mpr alternates, ?_⟩
      rw [words]
      rfl
  | conditional _ inductionHypothesis =>
      simp only [List.forall_mem_cons, List.forall_mem_append] at valid
      obtain ⟨rfl, _, rfl, branchValid⟩ := valid
      obtain ⟨alternating, rfl⟩ := inductionHypothesis branchValid
      refine ⟨by simpa using alternating, ?_⟩
      rw [words, List.map_singleton, List.intercalate_singleton]
      rfl

/-- A branch holds a kind of word if one of its statements does. -/
theorem lacks_joinedWords
    {kind : TokenKind}
    (other : kind ≠ .delimiter)
    {branch : List Statement}
    (lacks : ∀ statement ∈ branch, Lacks kind statement.words) :
    Lacks kind (joinedWords branch) :=
  (forall_mem_joinedWords_iff other.symm branch).mpr lacks

theorem LacksElse.lacks_words
    {statement : Statement}
    (lacksElse : statement.LacksElse) :
    Lacks (.keyword .elseWord) statement.words := by
  induction lacksElse with
  | @assignment target value =>
      have valueLacks : Lacks (.keyword .elseWord) value.words :=
        value.lacks_words (.keyword _)
      simp [words, Word.assignment, valueLacks]
  | @conditional condition thenBranch _ inductionHypothesis =>
      have conditionLacks : Lacks (.keyword .elseWord) condition.words :=
        condition.lacks_words (.keyword _)
      have branchLacks := lacks_joinedWords (by simp) inductionHypothesis
      rw [words, ← joinedWords]
      simp [Word.ofKeyword, conditionLacks, branchLacks]

/-- The words of a range are those of its first statement, what ends it and
those of the rest. -/
theorem exists_joinedWords_cons
    {termination : Termination}
    {ending : List Word}
    (first : Statement)
    {rest : List Statement}
    (ends : Ends termination ending [])
    (restReads : rest ≠ [] →
      ReadsRange termination (joinedWords rest ++ ending) rest) :
    ∃ between restWords,
      joinedWords (first :: rest) ++ ending =
          first.words ++ (between ++ restWords) ∧
        Ends termination between restWords ∧
          ((∀ statement ∈ rest, LacksElse statement) →
            Lacks (.keyword .elseWord) restWords) ∧
              ReadsRange termination restWords rest := by
  cases rest with
  | nil =>
      refine ⟨ending, [], ?_, ends, fun _ => lacks_nil _, .nil⟩
      rw [joinedWords_singleton, List.append_nil]
  | cons second others =>
      refine ⟨[Word.delimiter], _, ?_, Or.inl rfl, ?_, restReads (by simp)⟩
      · simp
      · intro restLacks
        apply lacks_append.mpr
        constructor
        · exact lacks_joinedWords (by simp) fun statement member =>
            (restLacks statement member).lacks_words
        · exact ends.lacks (by simp)

/-- The words of statements that can be told apart read as those statements. -/
theorem IsSequence.reads
    {statements : List Statement}
    (isSequence : IsSequence statements)
    (alternating : ∀ statement ∈ statements, statement.AssignsAlternating)
    (nonempty : statements ≠ [])
    {termination : Termination}
    {ending : List Word}
    (ends : Ends termination ending []) :
    ReadsRange termination (joinedWords statements ++ ending) statements := by
  induction isSequence generalizing termination ending with
  | nil => exact absurd rfl nonempty
  | @assignment target value rest _ restHypothesis =>
      rw [List.forall_mem_cons] at alternating
      obtain ⟨between, restWords, words_eq, restEnds, _, restReads⟩ :=
        exists_joinedWords_cons (.assignment target value) ends
          fun isNonempty => restHypothesis alternating.2 isNonempty ends
      rw [words_eq]
      exact .simple (IsSimple.assignment.reads alternating.1) restEnds
        (by simp [isConditional]) restReads
  | @simple condition thenBranch elseBranch rest isSimple restLacks _
      restHypothesis =>
      rw [List.forall_mem_cons] at alternating
      obtain ⟨between, restWords, words_eq, restEnds, wordsLack, restReads⟩ :=
        exists_joinedWords_cons (.conditional condition thenBranch elseBranch)
          ends fun isNonempty => restHypothesis alternating.2 isNonempty ends
      rw [words_eq]
      exact .simple (isSimple.reads alternating.1) restEnds
        (fun _ => wordsLack restLacks) restReads
  | @choice condition thenBranch rest alternative thenNonempty _ isSimple
      restLacks _ thenHypothesis restHypothesis =>
      rw [List.forall_mem_cons, assignsAlternating_withElse,
        List.forall_mem_singleton] at alternating
      obtain ⟨⟨thenAlternating, elseAlternating⟩, restAlternating⟩ :=
        alternating
      obtain ⟨between, restWords, words_eq, restEnds, wordsLack, restReads⟩ :=
        exists_joinedWords_cons
          (.conditional condition thenBranch (some [alternative])) ends
          fun isNonempty => restHypothesis restAlternating isNonempty ends
      have thenReads :
          ReadsRange .implied (joinedWords thenBranch ++ []) thenBranch :=
        thenHypothesis thenAlternating thenNonempty (Or.inr ⟨rfl, rfl, rfl⟩)
      rw [List.append_nil] at thenReads
      obtain ⟨first, others, rfl⟩ := List.exists_cons_of_ne_nil thenNonempty
      have reads :
          ReadsRange termination
            (Word.ofKeyword .ifWord ::
              (condition.words ++ Word.ofKeyword .thenWord ::
                (joinedWords (first :: others) ++ Word.ofKeyword .elseWord ::
                  (alternative.words ++ (between ++ restWords))))) _ :=
        .choice thenReads (isSimple.reads elseAlternating) restEnds
          (wordsLack restLacks) restReads
      rw [words_eq, words_withElse_singleton]
      simpa using reads

theorem IsSimple.lacksElse
    {statement : Statement}
    (isSimple : statement.IsSimple) :
    statement.LacksElse := by
  induction isSimple with
  | assignment => exact .assignment
  | conditional _ inductionHypothesis =>
      apply LacksElse.conditional
      rw [List.forall_mem_singleton]
      exact inductionHypothesis

/-- Simple statements can be told apart. -/
theorem IsSequence.of_forall_isSimple
    {statements : List Statement}
    (areSimple : ∀ statement ∈ statements, IsSimple statement) :
    IsSequence statements := by
  induction statements with
  | nil => exact .nil
  | cons first others inductionHypothesis =>
      rw [List.forall_mem_cons] at areSimple
      have othersSequence := inductionHypothesis areSimple.2
      cases first with
      | assignment => exact .assignment othersSequence
      | conditional =>
          refine .simple areSimple.1 ?_ othersSequence
          intro statement member
          exact (areSimple.2 statement member).lacksElse

/-- Assignments may stand in front of any statements that can be told apart. -/
theorem IsSequence.prepend_assignments
    {before after : List Statement}
    (areAssignments : ∀ statement ∈ before, statement.isConditional = false)
    (isSequence : IsSequence after) :
    IsSequence (before ++ after) := by
  induction before with
  | nil => exact isSequence
  | cons first others inductionHypothesis =>
      rw [List.forall_mem_cons] at areAssignments
      cases first with
      | assignment => exact .assignment (inductionHypothesis areAssignments.2)
      | conditional => cases areAssignments.1

/-- Statements have no else branches exactly if they are read from words
without `else`. -/
theorem ReadsRange.lacksElse_iff
    {termination : Termination}
    {readWords : List Word}
    {statements : List Statement}
    (reads : ReadsRange termination readWords statements) :
    (∀ statement ∈ statements, LacksElse statement) ↔
      Lacks (.keyword .elseWord) readWords := by
  induction reads with
  | nil => simp
  | @simple _ _ ending _ _ _ simpleReads ends _ _ inductionHypothesis =>
      have endingLacks : Lacks (.keyword .elseWord) ending :=
        ends.lacks (by simp)
      rw [List.forall_mem_cons, lacks_append, lacks_append,
        inductionHypothesis]
      simp [simpleReads.isSimple.lacksElse, simpleReads.lacks_else, endingLacks]
  | choice _ _ _ _ _ _ _ =>
      rw [List.forall_mem_cons]
      constructor
      · rintro ⟨impossible, _⟩
        cases impossible
      · simp

theorem ReadsSimple.isConditional_eq_false_iff
    {readWords : List Word}
    {statement : Statement}
    (reads : ReadsSimple readWords statement) :
    statement.isConditional = false ↔
      ∀ keyword, Lacks (.keyword keyword) readWords := by
  cases reads with
  | assignment valueReads =>
      simp [isConditional, valueReads.lacks (.keyword _)]
  | conditional _ =>
      constructor
      · intro impossible
        cases impossible
      · intro lacks
        have noIf := lacks .ifWord
        simp at noIf

/-- Statements are assignments exactly if they are read from words without any
reserved word. -/
theorem ReadsRange.isConditional_eq_false_iff
    {termination : Termination}
    {readWords : List Word}
    {statements : List Statement}
    (reads : ReadsRange termination readWords statements) :
    (∀ statement ∈ statements, statement.isConditional = false) ↔
      ∀ keyword, Lacks (.keyword keyword) readWords := by
  induction reads with
  | nil => simp
  | @simple _ _ ending _ _ _ simpleReads ends _ _ inductionHypothesis =>
      have endingLacks (keyword : Keyword) : Lacks (.keyword keyword) ending :=
        ends.lacks (by simp)
      rw [List.forall_mem_cons, simpleReads.isConditional_eq_false_iff,
        inductionHypothesis]
      simp only [lacks_append, endingLacks, true_and, forall_and]
  | choice _ _ _ _ _ _ _ =>
      rw [List.forall_mem_cons]
      constructor
      · rintro ⟨impossible, _⟩
        cases impossible
      · intro lacks
        have noIf := lacks .ifWord
        simp at noIf

/-- Words read as statements that can be told apart. -/
theorem ReadsRange.isSequence
    {termination : Termination}
    {readWords : List Word}
    {statements : List Statement}
    (reads : ReadsRange termination readWords statements) :
    IsSequence statements := by
  induction reads with
  | nil => exact .nil
  | @simple _ _ _ _ statement _ simpleReads _ wordsLack restReads
      restHypothesis =>
      cases statement with
      | assignment => exact .assignment restHypothesis
      | conditional =>
          exact .simple simpleReads.isSimple
            (restReads.lacksElse_iff.mpr (wordsLack rfl)) restHypothesis
  | choice _ elseReads _ wordsLack restReads thenHypothesis restHypothesis =>
      exact .choice (by simp) thenHypothesis elseReads.isSimple
        (restReads.lacksElse_iff.mpr wordsLack) restHypothesis

/-- Valid words read as statements that assign alternating expressions. -/
theorem ReadsRange.assignsAlternating
    {termination : Termination}
    {readWords : List Word}
    {statements : List Statement}
    (reads : ReadsRange termination readWords statements)
    (valid : ∀ word ∈ readWords, word.IsValid) :
    ∀ statement ∈ statements, statement.AssignsAlternating := by
  induction reads with
  | nil => simp
  | simple simpleReads _ _ _ inductionHypothesis =>
      simp only [List.forall_mem_append] at valid
      rw [List.forall_mem_cons]
      exact ⟨(simpleReads.alternates valid.1).1, inductionHypothesis valid.2.2⟩
  | choice _ elseReads _ _ _ thenHypothesis restHypothesis =>
      simp only [List.forall_mem_cons, List.forall_mem_append] at valid
      obtain ⟨_, _, _, thenValid, _, elseValid, _, restValid⟩ := valid
      rw [List.forall_mem_cons, assignsAlternating_withElse,
        List.forall_mem_singleton]
      exact ⟨⟨thenHypothesis thenValid, (elseReads.alternates elseValid).1⟩,
        restHypothesis restValid⟩

end Statement

/-! ## Programs -/

/-- The conditions under which some text reads as the program. -/
structure Program.IsCanonical (program : Program) : Prop where
  /-- Names and numbers are spelled as such. -/
  spelled : ∀ operand ∈ program.operands, operand.IsSpelled
  /-- Every expression alternates, and so do its groups. -/
  alternates : ∀ value ∈ program.values, Expression.Alternates .value value
  /-- The statements can be told apart. -/
  isSequence : Statement.IsSequence program.statements

/-- The words of a canonical program read as that program. -/
theorem Program.IsCanonical.reads
    {program : Program}
    (isCanonical : program.IsCanonical) :
    Statement.ReadsRange .required program.words program.statements := by
  by_cases isEmpty : program.statements = []
  · rw [words, isEmpty]
    exact .nil
  · rw [words_eq_joinedWords isEmpty]
    apply isCanonical.isSequence.reads _ isEmpty (Or.inl rfl)
    exact List.forall_mem_flatMap.mp isCanonical.alternates

end ConditionalAssignment
