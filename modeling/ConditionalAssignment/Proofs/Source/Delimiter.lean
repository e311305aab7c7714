import ConditionalAssignment.Proofs.Grammar.Ending
import ConditionalAssignment.Proofs.Source.Reading
import Mathlib

/-!
# Delimiters in front of `else`

Tokens are read as the same program whether or not a delimiter stands directly
in front of an `else`.  Only a second delimiter there would be an empty
statement.  The delimiter may stand in a branch at any depth, and whatever
statement it ends.
-/

namespace ConditionalAssignment.Program

/-- A single delimiter in front of an `else` makes no difference to the program
that is read, nor to whether one is read. -/
theorem ofTokens_delimiter_before_else
    {before behind : List Token}
    {delimiter elseToken : Token}
    (isDelimiter : delimiter.isDelimiter = true)
    (isElse : elseToken.isKeyword .elseWord = true)
    (isSingle : ∀ last ∈ before.getLast?, last.isDelimiter = false)
    (program : Program) :
    ofTokens (before ++ delimiter :: elseToken :: behind) = .ok program ↔
      ofTokens (before ++ elseToken :: behind) = .ok program := by
  rw [Token.isDelimiter_eq_true_iff] at isDelimiter
  rw [Token.isKeyword_eq_true_iff] at isElse
  have undelimited : Undelimited (before.map Token.word) := by
    intro last isLast
    rw [List.getLast?_map] at isLast
    obtain ⟨token, isToken, rfl⟩ := Option.mem_map.mp isLast
    simpa [Token.isDelimiter] using isSingle token isToken
  have delimited : Ends .implied [delimiter.word] [] :=
    Or.inl (congrArg (fun kind => [kind]) isDelimiter)
  have bounded : Ends .implied [] [] := Or.inr ⟨rfl, rfl, rfl⟩
  simp only [ofTokens_eq_ok_iff, List.map_append, List.map_cons]
  constructor
  · intro reads
    exact reads.exchange_ending isElse delimited bounded undelimited rfl
  · intro reads
    exact reads.exchange_ending isElse bounded delimited undelimited rfl

/-- The delimiter ends both conditionals inside the then branch.  A blank in its
place leaves all other tokens where they are. -/
theorem ofTokens_delimiter_before_else_nested :
    ∃ before delimiter elseToken behind program,
      Token.ofSource "if a<b then if c<d then x:=1; else y:=2;" =
          .ok (before ++ delimiter :: elseToken :: behind) ∧
        Token.ofSource "if a<b then if c<d then x:=1  else y:=2;" =
            .ok (before ++ elseToken :: behind) ∧
          delimiter.isDelimiter = true ∧
            elseToken.isKeyword .elseWord = true ∧
              (∀ last ∈ before.getLast?, last.isDelimiter = false) ∧
                ofTokens (before ++ elseToken :: behind) = .ok program ∧
                  ofTokens (before ++ delimiter :: elseToken :: behind) =
                    .ok program := by
  have lexed :
      Token.ofSource "if a<b then if c<d then x:=1  else y:=2;" =
        .ok
          ([⟨.keyword .ifWord, "if", ⟨0, 1, 1⟩⟩,
              ⟨.identifier, "a", ⟨3, 1, 4⟩⟩, ⟨.comparison, "<", ⟨4, 1, 5⟩⟩,
              ⟨.identifier, "b", ⟨5, 1, 6⟩⟩,
              ⟨.keyword .thenWord, "then", ⟨7, 1, 8⟩⟩,
              ⟨.keyword .ifWord, "if", ⟨12, 1, 13⟩⟩,
              ⟨.identifier, "c", ⟨15, 1, 16⟩⟩,
              ⟨.comparison, "<", ⟨16, 1, 17⟩⟩,
              ⟨.identifier, "d", ⟨17, 1, 18⟩⟩,
              ⟨.keyword .thenWord, "then", ⟨19, 1, 20⟩⟩,
              ⟨.identifier, "x", ⟨24, 1, 25⟩⟩,
              ⟨.assignment, ":=", ⟨25, 1, 26⟩⟩,
              ⟨.constant, "1", ⟨27, 1, 28⟩⟩] ++
            ⟨.keyword .elseWord, "else", ⟨30, 1, 31⟩⟩ ::
              [⟨.identifier, "y", ⟨35, 1, 36⟩⟩,
                ⟨.assignment, ":=", ⟨36, 1, 37⟩⟩,
                ⟨.constant, "2", ⟨38, 1, 39⟩⟩,
                ⟨.delimiter, ";", ⟨39, 1, 40⟩⟩]) := by
    cbv
  have source :
      Program.ofSource "if a<b then if c<d then x:=1  else y:=2;" =
        .ok
          ⟨[.conditional ⟨.identifier "a", .less, .identifier "b"⟩
            [.conditional ⟨.identifier "c", .less, .identifier "d"⟩
              [.assignment "x" [.operand (.constant "1")]] none]
            (some [.assignment "y" [.operand (.constant "2")]])]⟩ := by
    cbv
  obtain ⟨tokens, tokensLexed, read⟩ := ofSource_eq_ok_iff.mp source
  obtain rfl := Except.ok.inj (lexed.symm.trans tokensLexed)
  refine ⟨_, ⟨.delimiter, ";", ⟨28, 1, 29⟩⟩, _, _, _, ?_, lexed, rfl, rfl,
    ?_, read, (ofTokens_delimiter_before_else rfl rfl ?_ _).mpr read⟩
  · cbv
  · simp [Token.isDelimiter]
  · simp [Token.isDelimiter]

end ConditionalAssignment.Program
