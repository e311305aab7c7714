import ConditionalAssignment.Proofs.Grammar.Expression
import ConditionalAssignment.Statement
import ConditionalAssignment.Statement.Chunk

/-!
# The grammar of statements

The reader of statements finds the end of a conditional by looking for the last
`else` of its range, however far away that is.  Here the same ranges are
described without looking ahead.  A conditional without `else` governs exactly
one simple statement.  A conditional with `else` governs a whole range before
it and one simple statement behind it.  No `else` may follow either of them in
the same range, as it would be taken to belong to them.

A range may end its last statement without a delimiter if its boundary stands
for one.  This is the only place where the manner of termination matters.
-/

namespace ConditionalAssignment

/-! ## Words without a kind -/

/-- No word has the given kind. -/
def Lacks (kind : TokenKind) (words : List Word) : Prop :=
  ∀ word ∈ words, word.kind ≠ kind

@[simp] theorem lacks_nil (kind : TokenKind) : Lacks kind [] := by
  intro word member
  cases member

@[simp] theorem lacks_cons
    {kind : TokenKind}
    {word : Word}
    {words : List Word} :
    Lacks kind (word :: words) ↔ word.kind ≠ kind ∧ Lacks kind words := by
  simp [Lacks]

@[simp] theorem lacks_append
    {kind : TokenKind}
    {first second : List Word} :
    Lacks kind (first ++ second) ↔ Lacks kind first ∧ Lacks kind second := by
  simp only [Lacks, List.mem_append, or_imp, forall_and]

/-- A list of words has only one first word of a kind. -/
theorem Lacks.append_cons_inj
    {kind : TokenKind}
    {leftBefore leftAfter rightBefore rightAfter : List Word}
    {left right : Word}
    (leftLacks : Lacks kind leftBefore)
    (left_kind : left.kind = kind)
    (rightLacks : Lacks kind rightBefore)
    (right_kind : right.kind = kind)
    (whole_eq : leftBefore ++ left :: leftAfter =
      rightBefore ++ right :: rightAfter) :
    leftBefore = rightBefore ∧ left = right ∧ leftAfter = rightAfter := by
  have test_eq_false {words : List Word} (lacks : Lacks kind words) :
      ∀ word ∈ words, decide (word.kind = kind) = false := by
    intro word member
    exact decide_eq_false (lacks word member)
  have cut_eq :
      (⟨leftBefore, left, leftAfter⟩ : Cut Word) =
        ⟨rightBefore, right, rightAfter⟩ :=
    Cut.eq_of_before whole_eq (decide_eq_true left_kind)
      (test_eq_false leftLacks) (decide_eq_true right_kind)
      (test_eq_false rightLacks)
  cases cut_eq
  exact ⟨rfl, rfl, rfl⟩

/-! ## Conditions -/

/-- The words of a condition. -/
def Comparison.words (comparison : Comparison) : List Word :=
  [comparison.left.word, ⟨.comparison, comparison.operator.symbol⟩,
    comparison.right.word]

/-- The kind of a word that stands outside conditions and expressions. -/
inductive TokenKind.IsStructural : TokenKind → Prop
  | delimiter : IsStructural .delimiter
  | keyword (word : Keyword) : IsStructural (.keyword word)

theorem Operand.kind_word_ne
    {kind : TokenKind}
    (structural : kind.IsStructural)
    (operand : Operand) :
    operand.word.kind ≠ kind := by
  cases structural <;> cases operand <;> simp [word]

/-- A condition holds neither a delimiter nor a reserved word. -/
theorem Comparison.lacks_words
    {kind : TokenKind}
    (structural : kind.IsStructural)
    (comparison : Comparison) :
    Lacks kind comparison.words := by
  have noSign : TokenKind.comparison ≠ kind := by
    cases structural <;> simp
  simp [words, Operand.kind_word_ne structural, noSign]

/-- An expression holds neither a delimiter nor a reserved word. -/
theorem Expression.Reads.lacks
    {kind : TokenKind}
    (structural : kind.IsStructural)
    {expectation : Expectation}
    {words : List Word}
    {terms : Expression}
    (reads : Reads expectation words terms) :
    Lacks kind words := by
  induction reads with
  | finish => exact lacks_nil kind
  | @operand operand _ _ _ inductionHypothesis =>
      have noOperand := Operand.kind_word_ne structural operand
      exact lacks_cons.mpr ⟨noOperand, inductionHypothesis⟩
  | operator _ _ inductionHypothesis
  | unknownOperator _ _ inductionHypothesis =>
      refine lacks_cons.mpr ⟨?_, inductionHypothesis⟩
      cases structural <;> simp
  | group _ _ _ innerHypothesis restHypothesis =>
      simp only [lacks_cons, lacks_append]
      refine ⟨?_, innerHypothesis, ?_, restHypothesis⟩
      · cases structural <;> simp
      · cases structural <;> simp

/-! ## Statements -/

/-- The statement is a conditional. -/
def Statement.isConditional : Statement → Bool
  | assignment _ _ => false
  | conditional _ _ _ => true

/-- The words may stand between a statement and the rest of its range. -/
def Ends
    (termination : Termination)
    (ending rest : List Word) : Prop :=
  ending.map Word.kind = [.delimiter] ∨
    termination = .implied ∧ ending = [] ∧ rest = []

namespace Statement

/-- The words read as one statement without `else` and without a delimiter. -/
inductive ReadsSimple : List Word → Statement → Prop
  | assignment
      {name sign : String}
      {words : List Word}
      {value : Expression} :
      Expression.Reads .value words value →
        ReadsSimple (⟨.identifier, name⟩ :: ⟨.assignment, sign⟩ :: words)
          (.assignment name value)
  | conditional
      {ifText thenText : String}
      {condition : Comparison}
      {words : List Word}
      {statement : Statement} :
      ReadsSimple words statement →
        ReadsSimple
          (⟨.keyword .ifWord, ifText⟩ ::
            (condition.words ++ ⟨.keyword .thenWord, thenText⟩ :: words))
          (.conditional condition [statement] none)

/-- The words read as a range of statements. -/
inductive ReadsRange :
    Termination → List Word → List Statement → Prop
  | nil {termination : Termination} : ReadsRange termination [] []
  | simple
      {termination : Termination}
      {first ending rest : List Word}
      {statement : Statement}
      {statements : List Statement} :
      ReadsSimple first statement →
        Ends termination ending rest →
          (statement.isConditional = true → Lacks (.keyword .elseWord) rest) →
            ReadsRange termination rest statements →
              ReadsRange termination (first ++ (ending ++ rest))
                (statement :: statements)
  | choice
      {termination : Termination}
      {ifText thenText elseText : String}
      {condition : Comparison}
      {thenWords elseWords ending rest : List Word}
      {first alternative : Statement}
      {others statements : List Statement} :
      ReadsRange .implied thenWords (first :: others) →
        ReadsSimple elseWords alternative →
          Ends termination ending rest →
            Lacks (.keyword .elseWord) rest →
              ReadsRange termination rest statements →
                ReadsRange termination
                  (⟨.keyword .ifWord, ifText⟩ ::
                    (condition.words ++ ⟨.keyword .thenWord, thenText⟩ ::
                      (thenWords ++ ⟨.keyword .elseWord, elseText⟩ ::
                        (elseWords ++ (ending ++ rest)))))
                  (.conditional condition (first :: others)
                    (some [alternative]) :: statements)

end Statement

/-! ## Ends -/

namespace Ends

variable {termination : Termination} {ending rest : List Word}

/-- What ends a statement before a rest also ends it before nothing. -/
theorem before_nil (ends : Ends termination ending rest) :
    Ends termination ending [] := by
  rcases ends with delimited | ⟨implied, ending_eq, _⟩
  · exact Or.inl delimited
  · exact Or.inr ⟨implied, ending_eq, rfl⟩

/-- What ends a statement still ends it when more follows the rest, unless the
boundary of the range was needed for that. -/
theorem append
    {behind : List Word}
    (ends : Ends termination ending rest)
    (bounded : termination = .required ∨ behind = []) :
    Ends termination ending (rest ++ behind) := by
  rcases ends with delimited | ⟨rfl, rfl, rfl⟩
  · exact Or.inl delimited
  · obtain impossible | rfl := bounded
    · cases impossible
    · exact Or.inr ⟨rfl, rfl, rfl⟩

theorem of_implied
    (ends : Ends .implied ending rest)
    (before_nil : Ends termination ending []) :
    Ends termination ending rest := by
  rcases ends with delimited | ⟨_, rfl, rfl⟩
  · exact Or.inl delimited
  · exact before_nil

/-- A statement that no boundary ends has a delimiter behind it. -/
theorem delimited (ends : Ends termination ending rest) :
    termination = .implied ∨ ¬ Lacks .delimiter ending := by
  rcases ends with delimited | ⟨implied, _, _⟩
  · obtain ⟨delimiter, rfl, kind_eq⟩ := List.map_eq_singleton_iff.mp delimited
    exact Or.inr (by simp [kind_eq])
  · exact Or.inl implied

/-- What ends a statement holds no word but a delimiter. -/
theorem lacks
    (ends : Ends termination ending rest)
    {kind : TokenKind}
    (other : kind ≠ .delimiter) :
    Lacks kind ending := by
  intro word member word_eq
  rcases ends with delimited | ⟨_, rfl, _⟩
  · have kindMember := List.mem_map_of_mem (f := Word.kind) member
    rw [delimited, List.mem_singleton, word_eq] at kindMember
    exact other kindMember
  · cases member

end Ends

namespace Statement.ReadsSimple

variable {words : List Word} {statement : Statement}

theorem lacks_delimiter (reads : ReadsSimple words statement) :
    Lacks .delimiter words := by
  induction reads with
  | assignment valueReads =>
      simp [valueReads.lacks .delimiter]
  | @conditional _ _ condition _ _ _ inductionHypothesis =>
      simp [condition.lacks_words .delimiter, inductionHypothesis]

theorem lacks_else (reads : ReadsSimple words statement) :
    Lacks (.keyword .elseWord) words := by
  induction reads with
  | assignment valueReads =>
      simp [valueReads.lacks (.keyword _)]
  | @conditional _ _ condition _ _ _ inductionHypothesis =>
      simp [condition.lacks_words (.keyword _), inductionHypothesis]

theorem exists_cons (reads : ReadsSimple words statement) :
    ∃ first others,
      words = first :: others ∧ first.kind ≠ .delimiter ∧
        first.kind ≠ .keyword .elseWord := by
  cases reads with
  | assignment _ => exact ⟨_, _, rfl, by simp⟩
  | conditional _ => exact ⟨_, _, rfl, by simp⟩

end Statement.ReadsSimple

namespace Statement.ReadsRange

/-- A range that holds a statement starts with a word that is no delimiter. -/
theorem exists_cons
    {termination : Termination}
    {words : List Word}
    {statement : Statement}
    {statements : List Statement}
    (reads : ReadsRange termination words (statement :: statements)) :
    ∃ first others, words = first :: others ∧ first.kind ≠ .delimiter := by
  cases reads with
  | simple simpleReads _ _ _ =>
      obtain ⟨first, others, rfl, noDelimiter, _⟩ := simpleReads.exists_cons
      exact ⟨first, _, rfl, noDelimiter⟩
  | choice _ _ _ _ _ => exact ⟨_, _, rfl, by simp⟩

theorem eq_nil
    {termination : Termination}
    {statements : List Statement}
    (reads : ReadsRange termination [] statements) :
    statements = [] := by
  cases statements with
  | nil => rfl
  | cons statement others =>
      obtain ⟨_, _, impossible, _⟩ := reads.exists_cons
      cases impossible

theorem words_eq_nil
    {termination : Termination}
    {words : List Word}
    (reads : ReadsRange termination words []) :
    words = [] := by
  cases reads
  rfl

/-- A range of words that hold no `else`, and no delimiter but perhaps a last
one, holds one simple statement. -/
theorem eq_singleton
    {termination : Termination}
    {words ending : List Word}
    {statements : List Statement}
    (reads : ReadsRange termination (words ++ ending) statements)
    (nonempty : words ≠ [])
    (noDelimiter : Lacks .delimiter words)
    (noElse : Lacks (.keyword .elseWord) words)
    (endingEnds : Ends .implied ending []) :
    ∃ statement,
      statements = [statement] ∧ ReadsSimple words statement ∧
        Ends termination ending [] := by
  have wholeLacks : Lacks (.keyword .elseWord) (words ++ ending) :=
    lacks_append.mpr ⟨noElse, endingEnds.lacks (by simp)⟩
  generalize whole_eq : words ++ ending = whole at reads wholeLacks
  cases reads with
  | nil => exact absurd (List.append_eq_nil_iff.mp whole_eq).1 nonempty
  | @simple _ first readEnding rest statement statements simpleReads ends _
      restReads =>
      have words_eq : first = words ∧ readEnding = ending ∧ rest = [] := by
        have firstLacks := simpleReads.lacks_delimiter
        rcases ends with delimited | ⟨_, rfl, rfl⟩ <;>
          rcases endingEnds with endingDelimited | ⟨_, rfl, _⟩
        · obtain ⟨delimiter, rfl, kind_eq⟩ :=
            List.map_eq_singleton_iff.mp delimited
          obtain ⟨last, rfl, last_kind⟩ :=
            List.map_eq_singleton_iff.mp endingDelimited
          obtain ⟨rfl, rfl, rfl⟩ :=
            noDelimiter.append_cons_inj last_kind firstLacks kind_eq whole_eq
          exact ⟨rfl, rfl, rfl⟩
        · obtain ⟨delimiter, rfl, kind_eq⟩ :=
            List.map_eq_singleton_iff.mp delimited
          rw [List.append_nil] at whole_eq
          simp [whole_eq, kind_eq] at noDelimiter
        · obtain ⟨last, rfl, last_kind⟩ :=
            List.map_eq_singleton_iff.mp endingDelimited
          rw [List.append_nil, List.append_nil] at whole_eq
          simp [← whole_eq, last_kind] at firstLacks
        · simp only [List.append_nil] at whole_eq
          exact ⟨whole_eq.symm, rfl, rfl⟩
      obtain ⟨rfl, rfl, rfl⟩ := words_eq
      rw [restReads.eq_nil]
      exact ⟨statement, rfl, simpleReads, ends⟩
  | choice _ _ _ _ _ => simp at wholeLacks

end Statement.ReadsRange

end ConditionalAssignment
