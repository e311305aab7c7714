import ConditionalAssignment.Position

/-!
# Tokens

A token is a stretch of text with a kind and a place.  Readers of tokens decide
by the kind first and look at the text only where the kind leaves a choice, so
a token whose text does not suit its kind is still a token.
-/

namespace ConditionalAssignment

/-- A reserved word. -/
inductive Keyword where
  /-- The word that starts a conditional. -/
  | ifWord
  /-- The word before the statements of a condition that holds. -/
  | thenWord
  /-- The word before the statements of a condition that fails. -/
  | elseWord
deriving DecidableEq

namespace Keyword

/-- The spelling of a reserved word. -/
def spelling : Keyword → String
  | ifWord => "if"
  | thenWord => "then"
  | elseWord => "else"

/-- The reserved word with a given spelling. -/
def ofSpelling? : String → Option Keyword
  | "if" => some ifWord
  | "then" => some thenWord
  | "else" => some elseWord
  | _ => none

/-- A reserved word is read from its spelling and from no other text. -/
theorem ofSpelling?_eq_some_iff
    {text : String}
    {keyword : Keyword} :
    ofSpelling? text = some keyword ↔ text = keyword.spelling := by
  constructor
  · intro found
    unfold ofSpelling? at found
    split at found <;> cases found <;> rfl
  · rintro rfl
    cases keyword <;> rfl

end Keyword

/-- What a token is. -/
inductive TokenKind where
  /-- A name. -/
  | identifier
  /-- A number. -/
  | constant
  /-- The sign of an assignment. -/
  | assignment
  /-- The sign of a comparison. -/
  | comparison
  /-- An operator of an expression. -/
  | arithmetic
  /-- A reserved word. -/
  | keyword (word : Keyword)
  /-- The end of a statement. -/
  | delimiter
  /-- A bracket that opens a group. -/
  | openBracket
  /-- A bracket that closes a group. -/
  | closeBracket
deriving DecidableEq

/-- The text of a token kind in a listing. -/
def TokenKind.describe : TokenKind → String
  | identifier => "identifier"
  | constant => "constant"
  | assignment => "assignment sign"
  | comparison => "comparison sign"
  | arithmetic => "arithmetic operator"
  | keyword word => s!"keyword '{word.spelling}'"
  | delimiter => "delimiter"
  | openBracket => "opening bracket"
  | closeBracket => "closing bracket"

/-- A classified stretch of text. -/
structure Token where
  /-- What the token is. -/
  kind : TokenKind
  /-- The text of the token. -/
  text : String
  /-- The place of its first character. -/
  position : Position
deriving DecidableEq

namespace Token

/-- The token ends a statement. -/
def isDelimiter (token : Token) : Bool :=
  token.kind = .delimiter

/-- The token is a given reserved word. -/
def isKeyword (token : Token) (word : Keyword) : Bool :=
  token.kind = .keyword word

/-- The token is a reserved word. -/
def isReserved (token : Token) : Bool :=
  match token.kind with
  | .keyword _ => true
  | _ => false

end Token

end ConditionalAssignment
