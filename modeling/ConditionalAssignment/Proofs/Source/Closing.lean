import ConditionalAssignment.Proofs.Grammar.Closing
import ConditionalAssignment.Proofs.Lexing.Tiling
import ConditionalAssignment.Proofs.Source.Streaming
import Mathlib

/-!
# Errors that the check of the brackets rules out

The reader of expressions can complain that a bracket is closed by another
family, and that a token has no place in an expression.  A text that passes the
check of the brackets never makes it complain so about a closing bracket: all
closing brackets of its tokens fit.  It may still leave a group unclosed, since
a delimiter inside a group cuts it.
-/

namespace ConditionalAssignment

/-- The tokens of a text that passes the check fit. -/
theorem Token.fitsBehind_of_ofSource
    {source : String}
    {tokens : List Token}
    (passed : Balance.check source = .ok ())
    (lexed : Token.ofSource source = .ok tokens) :
    FitsBehind [] tokens := by
  have closed := (Balance.checkFrom_eq_ok_iff [] _ _).mp passed
  rw [List.map_nil, ← Balance.openAfter_bracketsOf,
    Token.bracketsOf_eq lexed] at closed
  exact ⟨List.forall_mem_map.mp (Token.isValid_of_ofSource lexed), [], closed⟩

/-- A place belongs to one token at most. -/
theorem Token.eq_of_position_eq
    {source : String}
    {tokens : List Token}
    {left right : Token}
    (lexed : Token.ofSource source = .ok tokens)
    (leftMember : left ∈ tokens)
    (rightMember : right ∈ tokens)
    (position_eq : left.position = right.position) :
    left = right := by
  have places : (tokens.map Token.position).Nodup := by
    apply List.Pairwise.map _ _ (Token.pairwise_offset lexed)
    intro first second before both_eq
    exact Nat.ne_of_lt before (congrArg Position.offset both_eq)
  exact List.inj_on_of_nodup_map places leftMember rightMember position_eq

namespace Program

/-- After the check of the brackets, the reader finds no bracket closed by
another family and no closing bracket out of place. -/
theorem ofSource_spares_closing_brackets
    {source : String}
    {error : ParseError}
    (failed : ofSource source = .error (.grammar error)) :
    (∀ opening close, error.fault ≠ .mismatchedBracket opening close) ∧
      ∀ found,
        error.fault = .unexpectedToken found →
          ∃ tokens,
            Token.ofSource source = .ok tokens ∧
              ∀ token ∈ tokens,
                error.position = some token.position →
                  token.kind ≠ .closeBracket := by
  obtain ⟨passed, tokens, lexed, failed⟩ := ofSource_eq_grammar_iff.mp failed
  rw [ofTokens_eq, map_eq_error_iff] at failed
  have fits := Token.fitsBehind_of_ofSource passed lexed
  have spares := Statement.readRange_sparesClosing .required fits error failed
  unfold ParseError.SparesClosing at spares
  constructor
  · intro opening close fault_eq
    rw [fault_eq] at spares
    exact spares
  · intro found fault_eq
    rw [fault_eq] at spares
    obtain ⟨blamed, blamedMember, noClosing, blamed_eq⟩ := spares
    refine ⟨tokens, lexed, ?_⟩
    intro token member position_eq
    rw [blamed_eq, Option.some.injEq] at position_eq
    obtain rfl :=
      Token.eq_of_position_eq lexed blamedMember member position_eq
    exact noClosing

/-- A token out of place between brackets that fit. -/
theorem ofSource_spares_closing_brackets_group :
    ofSource "x := (a := b);" =
        .error (.grammar ⟨.unexpectedToken ":=", some ⟨8, 1, 9⟩⟩) ∧
      ∃ tokens,
        Token.ofSource "x := (a := b);" = .ok tokens ∧
          ∀ token ∈ tokens,
            token.position = ⟨8, 1, 9⟩ → token.kind ≠ .closeBracket := by
  have failed :
      ofSource "x := (a := b);" =
        .error (.grammar ⟨.unexpectedToken ":=", some ⟨8, 1, 9⟩⟩) := by
    cbv
  obtain ⟨tokens, lexed, noClosing⟩ :=
    (ofSource_spares_closing_brackets failed).2 ":=" rfl
  refine ⟨failed, tokens, lexed, ?_⟩
  intro token member position_eq
  exact noClosing token member (congrArg some position_eq.symm)

end Program

end ConditionalAssignment
