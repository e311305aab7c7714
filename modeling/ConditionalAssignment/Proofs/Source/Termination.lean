import ConditionalAssignment.Proofs.Grammar.Ending
import ConditionalAssignment.Proofs.Source.Reading
import Mathlib

/-!
# Tokens that need their last delimiter

The end of a branch may stand for the delimiter of its last statement, the end
of a program may not.  This is all that the manner of termination decides,
although it is handed on to the branches of conditionals: where a delimiter is
required, the same statements are read as where it is implied, provided that the
last token is one.  So no program is read from tokens that end in anything else.
-/

namespace ConditionalAssignment.Statement

/-- Tokens have a last delimiter exactly if their words do. -/
theorem lastDelimits_words_iff {tokens : List Token} :
    (∀ last ∈ (tokens.map Token.word).getLast?, last.kind = .delimiter) ↔
      ∀ last ∈ tokens.getLast?, last.isDelimiter = true := by
  simp [List.getLast?_map, Token.isDelimiter]

/-- Tokens are read with the last delimiter required exactly if they are read
with it implied and have it. -/
theorem outcome_readRange_required
    {tokens : List Token}
    {statements : List Statement} :
    (readRange .required tokens).outcome = .ok statements ↔
      (readRange .implied tokens).outcome = .ok statements ∧
        ∀ last ∈ tokens.getLast?, last.isDelimiter = true := by
  rw [outcome_readRange_eq_ok_iff, outcome_readRange_eq_ok_iff,
    ReadsRange.required_iff, lastDelimits_words_iff]

/-- The two manners of termination differ in the last delimiter of a range and
in nothing else.  In particular, tokens of which the last is no delimiter are
never read as a program. -/
theorem terminations_differ_in_last_delimiter (tokens : List Token) :
    (∀ statements,
        (readRange .required tokens).outcome = .ok statements ↔
          (readRange .implied tokens).outcome = .ok statements ∧
            (tokens = [] ∨
              ∃ last ∈ tokens.getLast?, last.isDelimiter = true)) ∧
      ((∃ last ∈ tokens.getLast?, last.isDelimiter = false) →
        ∃ error, Program.ofTokens tokens = .error error) := by
  constructor
  · intro statements
    rw [outcome_readRange_required]
    cases tokens using List.reverseRecOn with
    | nil => simp
    | append_singleton front last => simp
  · rintro ⟨last, isLast, noDelimiter⟩
    cases read : Program.ofTokens tokens with
    | error error => exact ⟨error, rfl⟩
    | ok program =>
        rw [Program.ofTokens_eq] at read
        obtain ⟨statements, rangeRead, _⟩ := map_eq_ok_iff.mp read
        have lastDelimits := (outcome_readRange_required.mp rangeRead).2
        rw [lastDelimits last isLast] at noDelimiter
        cases noDelimiter

/-- A conditional at the end of a text is read where a delimiter is implied and
refused as a program. -/
theorem terminations_differ_in_last_delimiter_conditional :
    ∃ tokens,
      Token.ofSource "if a<b then x:=1" = .ok tokens ∧
        (readRange .implied tokens).outcome =
            .ok
              [.conditional ⟨.identifier "a", .less, .identifier "b"⟩
                [.assignment "x" [.operand (.constant "1")]] none] ∧
          (∃ last ∈ tokens.getLast?, last.isDelimiter = false) ∧
            ∃ error, Program.ofTokens tokens = .error error := by
  have lexed :
      Token.ofSource "if a<b then x:=1" =
        .ok
          [⟨.keyword .ifWord, "if", ⟨0, 1, 1⟩⟩,
            ⟨.identifier, "a", ⟨3, 1, 4⟩⟩, ⟨.comparison, "<", ⟨4, 1, 5⟩⟩,
            ⟨.identifier, "b", ⟨5, 1, 6⟩⟩,
            ⟨.keyword .thenWord, "then", ⟨7, 1, 8⟩⟩,
            ⟨.identifier, "x", ⟨12, 1, 13⟩⟩,
            ⟨.assignment, ":=", ⟨13, 1, 14⟩⟩,
            ⟨.constant, "1", ⟨15, 1, 16⟩⟩] := by
    cbv
  refine ⟨_, lexed, by cbv, ?_, ?_⟩
  · exact ⟨_, rfl, rfl⟩
  · exact (terminations_differ_in_last_delimiter _).2 ⟨_, rfl, rfl⟩

end ConditionalAssignment.Statement
