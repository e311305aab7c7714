import ConditionalAssignment.Proofs.Grammar.Blame
import ConditionalAssignment.Proofs.Source.Reading
import Mathlib

/-!
# Reading in one step or in two

A tree can be read from a text at once, or from the items that the text is split
into.  The second way skips the check of the brackets, and it reports lexical
errors as one error of the grammar.  Nothing is lost by skipping the check: a
text whose tokens are read passes it.  Otherwise the two ways fail for the same
reason, unless the check fails first.
-/

namespace ConditionalAssignment

/-! ## The step that fails -/

namespace Program

theorem ofSource_eq_brackets_iff
    {source : String}
    {error : BracketError} :
    Program.ofSource source = .error (.brackets error) ↔
      Balance.check source = .error error := by
  simp only [Program.ofSource_eq, bind_eq_error_iff, mapError_eq_error_iff,
    mapError_eq_ok_iff]
  constructor
  · rintro (⟨found, failed, found_eq⟩ | ⟨_, _, later⟩)
    · cases found_eq
      exact failed
    · rcases later with ⟨_, _, impossible⟩ | ⟨_, _, _, _, impossible⟩
      · cases impossible
      · cases impossible
  · intro failed
    exact Or.inl ⟨error, failed, rfl⟩

theorem ofSource_eq_lexical_iff
    {source : String}
    {errors : List LexError} :
    Program.ofSource source = .error (.lexical errors) ↔
      Balance.check source = .ok () ∧
        Token.ofSource source = .error errors := by
  simp only [Program.ofSource_eq, bind_eq_error_iff, mapError_eq_error_iff,
    mapError_eq_ok_iff]
  constructor
  · rintro (⟨_, _, impossible⟩ | ⟨_, passed, later⟩)
    · cases impossible
    · rcases later with ⟨found, failed, found_eq⟩ | ⟨_, _, _, _, impossible⟩
      · cases found_eq
        exact ⟨passed, failed⟩
      · cases impossible
  · rintro ⟨passed, failed⟩
    exact Or.inr ⟨(), passed, Or.inl ⟨errors, failed, rfl⟩⟩

theorem ofSource_eq_grammar_iff
    {source : String}
    {error : ParseError} :
    Program.ofSource source = .error (.grammar error) ↔
      Balance.check source = .ok () ∧
        ∃ tokens, Token.ofSource source = .ok tokens ∧
          Program.ofTokens tokens = .error error := by
  simp only [Program.ofSource_eq, bind_eq_error_iff, mapError_eq_error_iff,
    mapError_eq_ok_iff]
  constructor
  · rintro (⟨_, _, impossible⟩ | ⟨_, passed, later⟩)
    · cases impossible
    · rcases later with
        ⟨_, _, impossible⟩ | ⟨tokens, lexed, found, failed, found_eq⟩
      · cases impossible
      · cases found_eq
        exact ⟨passed, tokens, lexed, failed⟩
  · rintro ⟨passed, tokens, lexed, failed⟩
    exact Or.inr ⟨(), passed, Or.inr ⟨tokens, lexed, error, failed, rfl⟩⟩

/-- Tokens that cannot be read have one to blame. -/
theorem ofTokens_blames (tokens : List Token) :
    BlamesTokens tokens (Program.ofTokens tokens) := by
  rw [ofTokens_eq]
  exact (Statement.readRange_blames .required tokens).map _

end Program

/-- A text that gives no tokens has a first lexical error. -/
theorem Token.exists_cons_of_ofSource
    {source : String}
    {errors : List LexError}
    (failed : Token.ofSource source = .error errors) :
    ∃ first others, errors = first :: others := by
  unfold Token.ofSource LexItem.collect at failed
  split at failed
  · cases failed
  · cases failed
    exact ⟨_, _, rfl⟩

/-! ## Trees -/

namespace Tree

variable {source : String}

theorem ofSource_eq_error_iff {error : SourceError} :
    Tree.ofSource source = .error error ↔
      Program.ofSource source = .error error := by
  rw [ofSource_eq]
  exact map_eq_error_iff

/-- The items of a text are read through its tokens. -/
theorem ofItems_ofSource (source : String) :
    Tree.ofItems (LexItem.ofSource source) =
      match Token.ofSource source with
      | .ok tokens => Tree.ofTokens tokens
      | .error errors =>
          .error ⟨.lexical errors, errors.head?.map LexError.position⟩ :=
  ofItems_eq _

/-- The items of a text are read exactly if the text is. -/
theorem ofItems_eq_ok_iff {tree : Tree} :
    Tree.ofItems (LexItem.ofSource source) = .ok tree ↔
      ∃ program, Program.ofSource source = .ok program ∧
        program.tree = tree := by
  simp only [Program.ofSource_eq_ok_iff]
  rw [ofItems_ofSource]
  cases lexed : Token.ofSource source with
  | error errors => simp
  | ok tokens =>
      dsimp only
      rw [ofTokens, map_eq_ok_iff]
      constructor
      · rintro ⟨program, read, tree_eq⟩
        exact ⟨program, ⟨tokens, rfl, read⟩, tree_eq⟩
      · rintro ⟨program, ⟨_, found_eq, read⟩, tree_eq⟩
        cases found_eq
        exact ⟨program, read, tree_eq⟩

/-- The items of a text that gives no tokens fail with all of its lexical
errors, at the place of the first one. -/
theorem ofItems_eq_lexical_iff {errors : List LexError} :
    (∃ first others,
        errors = first :: others ∧
          Tree.ofItems (LexItem.ofSource source) =
            .error ⟨.lexical errors, some first.position⟩) ↔
      Token.ofSource source = .error errors := by
  rw [ofItems_ofSource]
  constructor
  · rintro ⟨first, others, errors_eq, failed⟩
    cases lexed : Token.ofSource source with
    | error found =>
        rw [lexed] at failed
        simp only [Except.error.injEq, ParseError.mk.injEq,
          ParseFault.lexical.injEq] at failed
        rw [failed.1]
    | ok tokens =>
        rw [lexed] at failed
        have blames :=
          Program.ofTokens_blames tokens _ (map_eq_error_iff.mp failed)
        exact absurd rfl (blames.not_lexical errors)
  · intro failed
    obtain ⟨first, others, rfl⟩ := Token.exists_cons_of_ofSource failed
    refine ⟨first, others, rfl, ?_⟩
    rw [failed]
    rfl

/-- The items of a text that gives tokens fail as these tokens do. -/
theorem ofItems_eq_grammar_iff {error : ParseError} :
    (Tree.ofItems (LexItem.ofSource source) = .error error ∧
        ∀ errors, error.fault ≠ .lexical errors) ↔
      ∃ tokens, Token.ofSource source = .ok tokens ∧
        Program.ofTokens tokens = .error error := by
  rw [ofItems_ofSource]
  constructor
  · rintro ⟨failed, notLexical⟩
    cases lexed : Token.ofSource source with
    | error found =>
        rw [lexed] at failed
        cases failed
        exact absurd rfl (notLexical found)
    | ok tokens =>
        rw [lexed] at failed
        exact ⟨tokens, rfl, map_eq_error_iff.mp failed⟩
  · rintro ⟨tokens, lexed, failed⟩
    rw [lexed]
    constructor
    · exact map_eq_error_iff.mpr failed
    · exact (Program.ofTokens_blames tokens _ failed).not_lexical

/-- Reading a text at once and reading its items agree, and the check of the
brackets rejects no text whose items can be read. -/
theorem ofSource_agrees_with_ofItems (source : String) :
    (∀ tree,
        Tree.ofSource source = .ok tree ↔
          Tree.ofItems (LexItem.ofSource source) = .ok tree) ∧
      (∀ tree,
        Tree.ofItems (LexItem.ofSource source) = .ok tree →
          Balance.check source = .ok ()) ∧
      (∀ error,
        Tree.ofSource source = .error (.brackets error) ↔
          Balance.check source = .error error) ∧
      (Balance.check source = .ok () →
        (∀ errors,
          Tree.ofSource source = .error (.lexical errors) ↔
            ∃ first others,
              errors = first :: others ∧
                Tree.ofItems (LexItem.ofSource source) =
                  .error ⟨.lexical errors, some first.position⟩) ∧
        ∀ error,
          Tree.ofSource source = .error (.grammar error) ↔
            Tree.ofItems (LexItem.ofSource source) = .error error ∧
              ∀ errors, error.fault ≠ .lexical errors) := by
  refine ⟨?_, ?_, ?_, ?_⟩
  · intro tree
    rw [ofItems_eq_ok_iff, ofSource_eq, map_eq_ok_iff]
  · intro tree read
    obtain ⟨program, programRead, _⟩ := ofItems_eq_ok_iff.mp read
    obtain ⟨tokens, lexed, tokensRead⟩ :=
      Program.ofSource_eq_ok_iff.mp programRead
    exact Program.check_of_ofTokens lexed tokensRead
  · intro error
    rw [ofSource_eq_error_iff, Program.ofSource_eq_brackets_iff]
  · intro passed
    constructor
    · intro errors
      rw [ofSource_eq_error_iff, Program.ofSource_eq_lexical_iff,
        ofItems_eq_lexical_iff]
      simp only [passed, true_and]
    · intro error
      rw [ofSource_eq_error_iff, Program.ofSource_eq_grammar_iff,
        ofItems_eq_grammar_iff]
      simp only [passed, true_and]

/-- A text that is read, and one with balanced brackets that is not. -/
theorem ofSource_agrees_with_ofItems_read_unread :
    (∃ tree,
        Tree.ofItems (LexItem.ofSource "x := [1];") = .ok tree ∧
          Tree.ofSource "x := [1];" = .ok tree ∧
            Balance.check "x := [1];" = .ok ()) ∧
      Balance.check "x := (a) b;" = .ok () ∧
        Tree.ofItems (LexItem.ofSource "x := (a) b;") =
            .error ⟨.expectedOperator "b", some ⟨9, 1, 10⟩⟩ ∧
          Tree.ofSource "x := (a) b;" =
            .error (.grammar ⟨.expectedOperator "b", some ⟨9, 1, 10⟩⟩) := by
  have read :
      Tree.ofItems (LexItem.ofSource "x := [1];") =
        .ok
          (.group
            [.group
              [.leaf "x", .leaf ":=",
                .group [.group [.group [.leaf "1"]]]]]) := by
    cbv
  have passed : Balance.check "x := (a) b;" = .ok () := by cbv
  have failed :
      Tree.ofItems (LexItem.ofSource "x := (a) b;") =
        .error ⟨.expectedOperator "b", some ⟨9, 1, 10⟩⟩ := by
    cbv
  have readAgrees := ofSource_agrees_with_ofItems "x := [1];"
  have failedAgrees := ofSource_agrees_with_ofItems "x := (a) b;"
  refine ⟨⟨_, read, (readAgrees.1 _).mpr read, readAgrees.2.1 _ read⟩, passed,
    failed, ((failedAgrees.2.2.2 passed).2 _).mpr ⟨failed, ?_⟩⟩
  intro errors
  simp

end Tree

end ConditionalAssignment
