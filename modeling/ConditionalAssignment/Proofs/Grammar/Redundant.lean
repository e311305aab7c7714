import ConditionalAssignment.Proofs.Grammar.Canonical

/-!
# Redundant delimiters

A delimiter directly before `else` may be left out.  Words that read as a
program are the words of that program once these delimiters are left out, so a
text and the canonical text of its program differ in nothing else.

Whether a delimiter is redundant depends on the word behind it.  The proofs
therefore follow words that lose the same delimiters whatever stands behind
them; such lists can be put together.
-/

namespace ConditionalAssignment

namespace Word

/-- The first word is `else`. -/
def startsWithElse : List Word → Bool
  | [] => false
  | first :: _ => first.kind = .keyword .elseWord

/-- Leave out every delimiter that `else` directly follows. -/
def dropRedundant : List Word → List Word
  | [] => []
  | first :: rest =>
      if first.kind = .delimiter ∧ startsWithElse rest then
        dropRedundant rest
      else
        first :: dropRedundant rest

theorem mem_of_mem_dropRedundant
    {word : Word}
    {words : List Word}
    (member : word ∈ dropRedundant words) :
    word ∈ words := by
  induction words with
  | nil => cases member
  | cons first others inductionHypothesis =>
      rw [dropRedundant] at member
      split at member
      · exact .tail _ (inductionHypothesis member)
      · rcases List.mem_cons.mp member with rfl | member
        · exact .head _
        · exact .tail _ (inductionHypothesis member)

/-- Whatever stands behind the words, leaving out redundant delimiters changes
them to the given ones. -/
def Condenses (words remaining : List Word) : Prop :=
  ∀ behind, dropRedundant (words ++ behind) = remaining ++ dropRedundant behind

namespace Condenses

variable {words remaining otherWords otherRemaining : List Word}

theorem append
    (condenses : Condenses words remaining)
    (otherCondenses : Condenses otherWords otherRemaining) :
    Condenses (words ++ otherWords) (remaining ++ otherRemaining) := by
  intro behind
  rw [List.append_assoc, condenses, otherCondenses, List.append_assoc]

/-- Words that are no delimiters stay. -/
theorem of_lacks (lacks : Lacks .delimiter words) :
    Condenses words words := by
  intro behind
  induction words with
  | nil => rfl
  | cons first others inductionHypothesis =>
      rw [lacks_cons] at lacks
      rw [List.cons_append, dropRedundant, if_neg (fun both => lacks.1 both.1),
        inductionHypothesis lacks.2, List.cons_append]

/-- A delimiter before a word other than `else` stays. -/
theorem delimiter_append
    (delimiter : Word)
    (nonempty : words ≠ [])
    (noElse : startsWithElse words = false)
    (condenses : Condenses words remaining) :
    Condenses (delimiter :: words) (delimiter :: remaining) := by
  intro behind
  have stays :
      ¬ (delimiter.kind = .delimiter ∧
        startsWithElse (words ++ behind) = true) := by
    obtain ⟨first, others, rfl⟩ := List.exists_cons_of_ne_nil nonempty
    intro both
    rw [List.cons_append] at both
    rw [startsWithElse] at noElse both
    rw [noElse] at both
    exact Bool.false_ne_true both.2
  rw [List.cons_append, dropRedundant, if_neg stays, condenses,
    List.cons_append]

/-- What ends the statement before `else` is left out. -/
theorem ending_else
    {termination : Termination}
    (ends : Ends termination words [])
    {elseWord : Word}
    (isElse : elseWord.kind = .keyword .elseWord) :
    Condenses (words ++ [elseWord]) [elseWord] := by
  have elseStays : Condenses [elseWord] [elseWord] :=
    of_lacks (by simp [isElse])
  rcases ends with delimited | ⟨_, rfl, _⟩
  · obtain ⟨delimiter, rfl, isDelimiter⟩ :=
      List.map_eq_singleton_iff.mp delimited
    intro behind
    have leaves :
        delimiter.kind = .delimiter ∧
          startsWithElse ([elseWord] ++ behind) = true := by
      simp [isDelimiter, startsWithElse, isElse]
    rw [List.append_assoc, List.cons_append, List.nil_append, dropRedundant,
      if_pos leaves, elseStays]
  · exact elseStays

end Condenses

end Word

theorem Ends.eq_delimiter
    {termination : Termination}
    {ending rest : List Word}
    (ends : Ends termination ending rest)
    (valid : ∀ word ∈ ending, word.IsValid)
    (needed : termination = .required ∨ rest ≠ []) :
    ending = [Word.delimiter] := by
  rcases ends with delimited | ⟨rfl, _, rest_eq⟩
  · obtain ⟨⟨kind, text⟩, rfl, rfl⟩ := List.map_eq_singleton_iff.mp delimited
    rw [List.forall_mem_singleton] at valid
    obtain rfl : text = ";" := valid
    rfl
  · simp [rest_eq] at needed

namespace Statement

/-- The words of a range are those of its statements up to redundant
delimiters and what ends the last statement. -/
def CondensesTo
    (termination : Termination)
    (readWords : List Word)
    (statements : List Statement) : Prop :=
  ∃ front ending,
    readWords = front ++ ending ∧ front ≠ [] ∧
      Word.startsWithElse front = false ∧ Ends termination ending [] ∧
        Word.Condenses front (joinedWords statements)

/-- A statement in front of a range. -/
theorem CondensesTo.cons
    {termination : Termination}
    {front ending rest : List Word}
    {first : Statement}
    {others : List Statement}
    (nonempty : front ≠ [])
    (noElse : Word.startsWithElse front = false)
    (condenses : Word.Condenses front first.words)
    (ends : Ends termination ending rest)
    (valid : ∀ word ∈ ending, word.IsValid)
    (restReads : ReadsRange termination rest others)
    (restCondenses : others ≠ [] → CondensesTo termination rest others) :
    CondensesTo termination (front ++ (ending ++ rest)) (first :: others) := by
  cases others with
  | nil =>
      obtain rfl := restReads.words_eq_nil
      refine ⟨front, ending, ?_, nonempty, noElse, ends, ?_⟩
      · rw [List.append_nil]
      · rw [joinedWords_singleton]
        exact condenses
  | cons second others =>
      obtain ⟨restFront, restEnding, rfl, restNonempty, restNoElse, restEnds,
        restFrontCondenses⟩ := restCondenses (by simp)
      obtain rfl := ends.eq_delimiter valid (Or.inr (by simp [restNonempty]))
      refine ⟨front ++ Word.delimiter :: restFront, restEnding, ?_, ?_, ?_,
        restEnds, ?_⟩
      · simp
      · simp
      · obtain ⟨head, tail, rfl⟩ := List.exists_cons_of_ne_nil nonempty
        exact noElse
      · rw [joinedWords_cons_cons]
        apply condenses.append
        exact restFrontCondenses.delimiter_append _ restNonempty restNoElse

/-- Valid words that read as statements are the words of these statements, up
to redundant delimiters. -/
theorem ReadsRange.condensesTo
    {termination : Termination}
    {readWords : List Word}
    {statements : List Statement}
    (reads : ReadsRange termination readWords statements)
    (valid : ∀ word ∈ readWords, word.IsValid)
    (nonempty : statements ≠ []) :
    CondensesTo termination readWords statements := by
  induction reads with
  | nil => exact absurd rfl nonempty
  | simple simpleReads ends _ restReads restHypothesis =>
      simp only [List.forall_mem_append] at valid
      obtain ⟨firstValid, endingValid, restValid⟩ := valid
      obtain ⟨head, tail, first_eq, _, noElse⟩ := simpleReads.exists_cons
      have condenses := Word.Condenses.of_lacks simpleReads.lacks_delimiter
      obtain ⟨_, rfl⟩ := simpleReads.alternates firstValid
      apply CondensesTo.cons _ _ condenses ends endingValid restReads
        (restHypothesis restValid)
      · simp [first_eq]
      · simp [first_eq, Word.startsWithElse, noElse]
  | @choice termination ifText thenText elseText condition thenWords elseWords
      ending rest first alternative others statements _ elseReads ends _
      restReads thenHypothesis restHypothesis =>
      simp only [List.forall_mem_cons, List.forall_mem_append] at valid
      obtain ⟨rfl, _, rfl, thenValid, rfl, elseValid, endingValid,
        restValid⟩ := valid
      obtain ⟨thenFront, thenEnding, rfl, _, _, thenEnds, thenCondenses⟩ :=
        thenHypothesis thenValid (by simp)
      have elseCondenses :=
        Word.Condenses.of_lacks elseReads.lacks_delimiter
      obtain ⟨_, rfl⟩ := elseReads.alternates elseValid
      have headLacks :
          Lacks .delimiter
            (Word.ofKeyword .ifWord ::
              (condition.words ++ [Word.ofKeyword .thenWord])) := by
        simp [condition.lacks_words .delimiter, Word.ofKeyword]
      have else_kind :
          (Word.ofKeyword .elseWord).kind = .keyword .elseWord := rfl
      have branchesCondense :=
        ((Word.Condenses.of_lacks headLacks).append thenCondenses).append
          ((Word.Condenses.ending_else thenEnds else_kind).append
            elseCondenses)
      have condenses :
          Word.Condenses
            (Word.ofKeyword .ifWord ::
              (condition.words ++ Word.ofKeyword .thenWord ::
                (thenFront ++ (thenEnding ++
                  Word.ofKeyword .elseWord :: alternative.words))))
            (conditional condition (first :: others)
              (some [alternative])).words := by
        rw [words_withElse_singleton]
        simpa using branchesCondense
      have range :=
        CondensesTo.cons (by simp)
          (by simp [Word.ofKeyword, Word.startsWithElse]) condenses ends
          endingValid restReads (restHypothesis restValid)
      simpa [Word.ofKeyword] using range

/-- Valid words that read as a program are its words once the redundant
delimiters are left out. -/
theorem ReadsRange.dropRedundant_eq
    {readWords : List Word}
    {program : Program}
    (reads : ReadsRange .required readWords program.statements)
    (valid : ∀ word ∈ readWords, word.IsValid) :
    Word.dropRedundant readWords = program.words := by
  by_cases isEmpty : program.statements = []
  · rw [isEmpty] at reads
    rw [reads.words_eq_nil, Program.words, isEmpty]
    rfl
  · obtain ⟨front, ending, rfl, _, _, ends, condenses⟩ :=
      reads.condensesTo valid isEmpty
    rw [List.forall_mem_append] at valid
    obtain rfl := ends.eq_delimiter valid.2 (Or.inl rfl)
    rw [condenses, Program.words_eq_joinedWords isEmpty]
    rfl

end Statement

end ConditionalAssignment
