import ConditionalAssignment.Proofs.Bracket.Words
import ConditionalAssignment.Proofs.Grammar.Range
import ConditionalAssignment.Proofs.Grammar.Redundant
import ConditionalAssignment.Proofs.Lexing.Layout
import ConditionalAssignment.Source

/-!
# Which texts are read

A text is read as a program exactly if it gives tokens whose words read as that
program.  The check of the brackets before that never fails for such a text,
although it looks at characters and knows nothing of tokens: the brackets of the
text are those of the words, and words that are read are balanced.
-/

namespace ConditionalAssignment

/-- The tokens of a program are one range, which bounds no statement. -/
theorem Program.ofTokens_eq (tokens : List Token) :
    Program.ofTokens tokens =
      (Statement.readRange .required tokens).outcome.map Program.mk := by
  unfold ofTokens traceTokens
  exact Traced.outcome_map _ _

/-- Tokens are read by the grammar of ranges. -/
theorem Program.ofTokens_eq_ok_iff
    {tokens : List Token}
    {program : Program} :
    Program.ofTokens tokens = .ok program ↔
      Statement.ReadsRange .required (tokens.map Token.word)
        program.statements := by
  rw [← Statement.outcome_readRange_eq_ok_iff, ofTokens_eq, map_eq_ok_iff]
  constructor
  · rintro ⟨statements, read, rfl⟩
    exact read
  · intro read
    exact ⟨program.statements, read, rfl⟩

/-- The words of the tokens of a text are valid. -/
theorem Token.isValid_of_ofSource
    {source : String}
    {tokens : List Token}
    (lexed : Token.ofSource source = .ok tokens) :
    ∀ word ∈ tokens.map Token.word, word.IsValid := by
  intro word member
  exact (Token.spells_of_ofSource lexed).isValid_of_mem member

/-- A mark at the start of a text is no bracket. -/
theorem Cursor.bracketsOf_start (source : String) :
    bracketsOf (Cursor.start source).rest = bracketsOf source.toList := by
  unfold start
  cases source.toList with
  | nil => rfl
  | cons character rest =>
      dsimp only
      split
      · rename_i isMark
        subst isMark
        rfl
      · rfl

/-- The brackets of a text are those of its tokens. -/
theorem Token.bracketsOf_eq
    {source : String}
    {tokens : List Token}
    (lexed : Token.ofSource source = .ok tokens) :
    bracketsOf source.toList = Word.brackets (tokens.map Token.word) := by
  rw [← Cursor.bracketsOf_start]
  exact (Token.spells_of_ofSource lexed).bracketsOf_eq

/-- Valid words that read as a program read as a canonical one. -/
theorem Statement.ReadsRange.isCanonical
    {words : List Word}
    {program : Program}
    (reads : ReadsRange .required words program.statements)
    (valid : ∀ word ∈ words, word.IsValid) :
    program.IsCanonical := by
  have alternating := reads.assignsAlternating valid
  refine ⟨?_, List.forall_mem_flatMap.mpr alternating, reads.isSequence⟩
  rw [← Program.isValid_words_iff, ← reads.dropRedundant_eq valid]
  intro word member
  exact valid word (Word.mem_of_mem_dropRedundant member)

namespace Program

/-- The check of the brackets passes for every text that the grammar
accepts. -/
theorem check_of_ofTokens
    {source : String}
    {tokens : List Token}
    {program : Program}
    (lexed : Token.ofSource source = .ok tokens)
    (read : Program.ofTokens tokens = .ok program) :
    Balance.check source = .ok () := by
  apply Balance.check_of_balanced
  rw [Token.bracketsOf_eq lexed]
  exact (ofTokens_eq_ok_iff.mp read).balanced (Token.isValid_of_ofSource lexed)

/-- A text is read as a program exactly if its tokens are. -/
theorem ofSource_eq_ok_iff
    {source : String}
    {program : Program} :
    Program.ofSource source = .ok program ↔
      ∃ tokens, Token.ofSource source = .ok tokens ∧
        Program.ofTokens tokens = .ok program := by
  simp only [Program.ofSource_eq, bind_eq_ok_iff, mapError_eq_ok_iff]
  constructor
  · rintro ⟨_, _, tokens, lexed, read⟩
    exact ⟨tokens, lexed, read⟩
  · rintro ⟨tokens, lexed, read⟩
    exact ⟨(), check_of_ofTokens lexed read, tokens, lexed, read⟩

/-- A canonical program is read from the canonical text of every program that
has the same words. -/
theorem IsCanonical.ofSource_layout_of_words_eq
    {program other : Program}
    (isCanonical : program.IsCanonical)
    (other_eq : other.words = program.words) :
    Program.ofSource other.layout = .ok program := by
  have valid := program.isValid_words_iff.mpr isCanonical.spelled
  rw [← other_eq] at valid
  obtain ⟨tokens, lexed, words_eq⟩ :=
    Token.ofSource_of_spells (spells_layout valid)
  apply ofSource_eq_ok_iff.mpr
  refine ⟨tokens, lexed, ofTokens_eq_ok_iff.mpr ?_⟩
  rw [words_eq, other_eq]
  exact isCanonical.reads

/-- The canonical text of a canonical program is read as that program. -/
theorem IsCanonical.ofSource_layout
    {program : Program}
    (isCanonical : program.IsCanonical) :
    Program.ofSource program.layout = .ok program :=
  isCanonical.ofSource_layout_of_words_eq rfl

/-- Only canonical programs are read from texts. -/
theorem isCanonical_of_ofSource
    {source : String}
    {program : Program}
    (read : Program.ofSource source = .ok program) :
    program.IsCanonical := by
  obtain ⟨tokens, lexed, read⟩ := ofSource_eq_ok_iff.mp read
  have reads := ofTokens_eq_ok_iff.mp read
  exact reads.isCanonical (Token.isValid_of_ofSource lexed)

end Program

end ConditionalAssignment
