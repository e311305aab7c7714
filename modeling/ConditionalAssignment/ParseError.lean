import ConditionalAssignment.Cursor

/-!
# Parse errors

A parse error names a cause and, where there is a token to blame, its place.
Causes quote the text that was found; the wording of a message is decided here
and nowhere else.
-/

namespace ConditionalAssignment

/-- A reason why tokens do not read as a program. -/
inductive ParseFault where
  /-- The text holds lexical errors, so its tokens were not read at all. -/
  | lexical (errors : List LexError)
  /-- No delimiter ends the statement. -/
  | unterminatedStatement
  /-- Nothing stands before a delimiter. -/
  | emptyStatement
  /-- An assignment has fewer than three tokens. -/
  | incompleteStatement
  /-- The target of an assignment is no name. -/
  | expectedIdentifier (found : String)
  /-- The second token of an assignment is no assignment sign. -/
  | expectedAssignment (found : String)
  /-- A value is missing, and another token may stand in its place. -/
  | expectedOperand (found : Option String)
  /-- A value directly follows another. -/
  | expectedOperator (found : String)
  /-- A token has no place in an expression. -/
  | unexpectedToken (found : String)
  /-- A bracket is not closed within its statement. -/
  | unclosedBracket (opening : String)
  /-- A bracket is closed by one of another family. -/
  | mismatchedBracket (opening close : String)
  /-- A reserved word is missing where another token stands. -/
  | expectedKeyword (expected : Keyword) (found : String)
  /-- A conditional lacks the word before its first branch. -/
  | missingThen
  /-- The word before the second branch comes too early. -/
  | misplacedElse
  /-- A condition is not an operand, a sign and an operand. -/
  | invalidComparison
  /-- The middle token of a condition is no comparison sign. -/
  | expectedComparison (found : String)
  /-- A branch holds no statement. -/
  | emptyBranch (keyword : Keyword)
deriving DecidableEq

namespace ParseFault

/-- The text of a parse fault. -/
def message : ParseFault → String
  | lexical errors =>
      s!"lexical analysis found errors:\n{LexError.report errors}"
  | unterminatedStatement => "statement is not terminated by ';'"
  | emptyStatement => "empty statement"
  | incompleteStatement => "incomplete statement"
  | expectedIdentifier found =>
      s!"assignment target must be an identifier, got '{found}'"
  | expectedAssignment found => s!"expected ':=', got '{found}'"
  | expectedOperand none => "expected operand"
  | expectedOperand (some found) => s!"expected operand, got '{found}'"
  | expectedOperator found =>
      s!"expected arithmetic operator, got '{found}'"
  | unexpectedToken found => s!"unexpected '{found}' in expression"
  | unclosedBracket opening =>
      s!"'{opening}' is not closed within the statement"
  | mismatchedBracket opening close => s!"'{close}' cannot close '{opening}'"
  | expectedKeyword expected found =>
      s!"expected '{expected.spelling}', got '{found}'"
  | missingThen => "condition must be followed by 'then'"
  | misplacedElse => "'else' before 'then'"
  | invalidComparison => "condition must compare exactly two operands"
  | expectedComparison found => s!"expected comparison sign, got '{found}'"
  | emptyBranch keyword => s!"no statement after '{keyword.spelling}'"

/-- The fault stems from lexical errors, whose texts name their own places. -/
def isLexical : ParseFault → Bool
  | lexical _ => true
  | _ => false

end ParseFault

/-- A parse fault and the place of the token to blame, if there is one. -/
structure ParseError where
  /-- What is wrong. -/
  fault : ParseFault
  /-- The place of the blamed token. -/
  position : Option Position
deriving DecidableEq

namespace ParseError

/-- The error of a fault at a token. -/
def blame (token : Token) (fault : ParseFault) : ParseError :=
  ⟨fault, some token.position⟩

/-- The text of a parse error. -/
def message (error : ParseError) : String :=
  match error.position with
  | none => error.fault.message
  | some position =>
      if error.fault.isLexical then
        error.fault.message
      else
        s!"{error.fault.message} at {position.describe}"

end ParseError

end ConditionalAssignment
