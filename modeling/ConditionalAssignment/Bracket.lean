/-!
# Bracket families

Three families of brackets group the terms of an expression.  Each family has
one opening and one closing character, and the six characters are distinct, so
a character determines both its family and its side.
-/

namespace ConditionalAssignment

/-- A bracket family. -/
inductive Bracket where
  /-- Parentheses. -/
  | round
  /-- Square brackets. -/
  | square
  /-- Braces. -/
  | curly
deriving DecidableEq

namespace Bracket

/-- The opening character of a family. -/
def opening : Bracket → Char
  | round => '('
  | square => '['
  | curly => '{'

/-- The closing character of a family. -/
def closing : Bracket → Char
  | round => ')'
  | square => ']'
  | curly => '}'

/-- The family that a character opens. -/
def ofOpening? : Char → Option Bracket
  | '(' => some round
  | '[' => some square
  | '{' => some curly
  | _ => none

/-- The family that a character closes. -/
def ofClosing? : Char → Option Bracket
  | ')' => some round
  | ']' => some square
  | '}' => some curly
  | _ => none

/-- The family opened by a spelling of exactly one opening character. -/
def ofSpelling? (spelling : String) : Option Bracket :=
  match spelling.toList with
  | [character] => ofOpening? character
  | _ => none

/-- The character that closes what a character opens. -/
def closingFor? (character : Char) : Option Char :=
  (ofOpening? character).map closing

/-- A family is opened by its opening character and by no other. -/
theorem ofOpening?_eq_some_iff
    {character : Char}
    {bracket : Bracket} :
    ofOpening? character = some bracket ↔ character = bracket.opening := by
  constructor
  · intro found
    unfold ofOpening? at found
    split at found <;> cases found <;> rfl
  · rintro rfl
    cases bracket <;> rfl

/-- A family is closed by its closing character and by no other. -/
theorem ofClosing?_eq_some_iff
    {character : Char}
    {bracket : Bracket} :
    ofClosing? character = some bracket ↔ character = bracket.closing := by
  constructor
  · intro found
    unfold ofClosing? at found
    split at found <;> cases found <;> rfl
  · rintro rfl
    cases bracket <;> rfl

@[simp] theorem ofOpening?_opening (bracket : Bracket) :
    ofOpening? bracket.opening = some bracket :=
  ofOpening?_eq_some_iff.mpr rfl

@[simp] theorem ofClosing?_closing (bracket : Bracket) :
    ofClosing? bracket.closing = some bracket :=
  ofClosing?_eq_some_iff.mpr rfl

@[simp] theorem ofOpening?_closing (bracket : Bracket) :
    ofOpening? bracket.closing = none := by
  cases bracket <;> rfl

end Bracket

end ConditionalAssignment
