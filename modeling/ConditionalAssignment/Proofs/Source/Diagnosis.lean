import ConditionalAssignment.Proofs.Source.Streaming
import Mathlib

/-!
# What a diagnosis points at

Tokens that do not read as a program fail with a place and a cause.  The place
is that of one of the tokens.  If the cause quotes a text, it is the text of
that token, and if the cause is about one kind of token, the token is of that
kind.  Nothing is assumed of the tokens: their texts need not suit their kinds,
and several may stand at one place.
-/

namespace ConditionalAssignment

namespace ParseFault

/-- The text that a fault quotes of the token to blame. -/
def quoted? : ParseFault → Option String
  | expectedIdentifier found => some found
  | expectedAssignment found => some found
  | expectedOperand found => found
  | expectedOperator found => some found
  | unexpectedToken found => some found
  | unclosedBracket opening => some opening
  | mismatchedBracket _ close => some close
  | expectedKeyword _ found => some found
  | expectedComparison found => some found
  | _ => none

/-- The kind of the token to blame, for a fault that only one kind can have. -/
def blamedKind? : ParseFault → Option TokenKind
  | emptyStatement => some .delimiter
  | unclosedBracket _ => some .openBracket
  | mismatchedBracket _ _ => some .closeBracket
  | missingThen => some (.keyword .ifWord)
  | misplacedElse => some (.keyword .elseWord)
  | emptyBranch keyword => some (.keyword keyword)
  | _ => none

namespace Describes

variable {tokens : List Token} {token : Token} {fault : ParseFault}

theorem text_eq
    (describes : fault.Describes tokens token)
    {text : String}
    (quoted : text ∈ fault.quoted?) :
    token.text = text := by
  cases fault with
  | unclosedBracket opening =>
      cases quoted
      exact describes.2
  | mismatchedBracket opening close =>
      cases quoted
      exact describes.2.1
  | expectedIdentifier found | expectedAssignment found
  | expectedOperand found | expectedOperator found | unexpectedToken found
  | expectedKeyword expected found | expectedComparison found =>
      cases quoted
      exact describes
  | _ => cases quoted

theorem kind_eq
    (describes : fault.Describes tokens token)
    {kind : TokenKind}
    (blamed : kind ∈ fault.blamedKind?) :
    token.kind = kind := by
  cases fault with
  | unclosedBracket opening =>
      cases blamed
      exact describes.1
  | mismatchedBracket opening close =>
      cases blamed
      exact describes.1
  | emptyStatement | missingThen | misplacedElse | emptyBranch keyword =>
      cases blamed
      exact describes
  | _ => cases blamed

end Describes

end ParseFault

namespace Program

/-- The error of tokens that cannot be read stands at one of them, quotes the
text of that token and is right about its kind.  A bracket that is closed by
another family stands before the one that closes it.  The error is never a
lexical one. -/
theorem ofTokens_points_at_blamed_token
    {tokens : List Token}
    {error : ParseError}
    (failed : ofTokens tokens = .error error) :
    (∀ errors, error.fault ≠ .lexical errors) ∧
      ∃ token ∈ tokens,
        error.position = some token.position ∧
          (∀ text ∈ error.fault.quoted?, token.text = text) ∧
            (∀ kind ∈ error.fault.blamedKind?, token.kind = kind) ∧
              ∀ opening close,
                error.fault = .mismatchedBracket opening close →
                  ∃ opener : Token,
                    opener.kind = .openBracket ∧ opener.text = opening ∧
                      [opener, token].Sublist tokens := by
  have blames := ofTokens_blames tokens error failed
  have notLexical := blames.not_lexical
  obtain ⟨token, member, position_eq, describes⟩ := blames
  refine ⟨notLexical, token, member, position_eq, ?_, ?_, ?_⟩
  · intro text quoted
    exact describes.text_eq quoted
  · intro kind blamed
    exact describes.kind_eq blamed
  · intro opening close fault_eq
    rw [fault_eq] at describes
    exact describes.2.2

/-- An unknown opening bracket asks for a closing one without any text, so the
bracket behind the operand is blamed.  All tokens stand at different places. -/
theorem ofTokens_points_at_blamed_token_mismatched :
    ∃ tokens error,
      ofTokens tokens = .error error ∧
        error = ⟨.mismatchedBracket "<<" ")", some ⟨9, 2, 1⟩⟩ ∧
          ∃ token ∈ tokens,
            token = ⟨.closeBracket, ")", ⟨9, 2, 1⟩⟩ ∧
              ∃ opener : Token,
                opener.kind = .openBracket ∧ opener.text = "<<" ∧
                  [opener, token].Sublist tokens := by
  let tokens : List Token :=
    [⟨.identifier, "x", ⟨0, 1, 1⟩⟩, ⟨.assignment, "=", ⟨2, 1, 3⟩⟩,
      ⟨.openBracket, "<<", ⟨5, 1, 6⟩⟩, ⟨.constant, "?", ⟨7, 1, 8⟩⟩,
      ⟨.closeBracket, ")", ⟨9, 2, 1⟩⟩, ⟨.delimiter, ".", ⟨10, 2, 2⟩⟩]
  have failed :
      ofTokens tokens =
        .error ⟨.mismatchedBracket "<<" ")", some ⟨9, 2, 1⟩⟩ := by
    cbv
  obtain ⟨_, token, member, position_eq, text_eq, kind_eq, preceded⟩ :=
    ofTokens_points_at_blamed_token failed
  refine ⟨tokens, _, failed, rfl, token, member, ?_, preceded _ _ rfl⟩
  have text_is := text_eq ")" rfl
  have kind_is := kind_eq .closeBracket rfl
  obtain ⟨kind, text, position⟩ := token
  cases position_eq
  cases text_is
  cases kind_is
  rfl

end Program

end ConditionalAssignment
