import ConditionalAssignment.Expression
import ConditionalAssignment.Proofs.Lexing.Numeral
import ConditionalAssignment.Token

/-!
# Words

A word is a token without its place: a kind and a text.  A word is valid if its
text is a spelling of its kind.  Readers of tokens look at words alone, so what
is proved about valid words holds of every list of tokens that a text can give.
-/

namespace ConditionalAssignment

/-- A token without its place. -/
structure Word where
  /-- What the word is. -/
  kind : TokenKind
  /-- The text of the word. -/
  text : String
deriving DecidableEq

/-- The word of a token. -/
def Token.word (token : Token) : Word :=
  ⟨token.kind, token.text⟩

@[simp] theorem Token.kind_word (token : Token) :
    token.word.kind = token.kind :=
  rfl

@[simp] theorem Token.text_word (token : Token) :
    token.word.text = token.text :=
  rfl

/-- A letter followed by letters and digits that is no reserved word. -/
def IsName (text : String) : Prop :=
  (∃ letter others,
    text.toList = letter :: others ∧ letter.isAlpha = true ∧
      ∀ character ∈ others, character.isAlphanum = true) ∧
    ∀ keyword : Keyword, text ≠ keyword.spelling

/-- A single letter is a name, since every reserved word is longer. -/
theorem IsName.of_toList_eq_singleton
    {text : String}
    {letter : Char}
    (toList_eq : text.toList = [letter])
    (isAlpha : letter.isAlpha = true) :
    IsName text := by
  refine ⟨⟨letter, [], toList_eq, isAlpha, by simp⟩, ?_⟩
  rintro keyword rfl
  cases keyword <;> cases toList_eq

/-- Digits, perhaps a fraction and perhaps an exponent. -/
def IsNumber (text : String) : Prop :=
  Numeral.IsSpelling text.toList

namespace Word

/-- The text of a word is a spelling of its kind. -/
def IsValid (word : Word) : Prop :=
  match word.kind with
  | .identifier => IsName word.text
  | .constant => IsNumber word.text
  | .assignment => word.text = ":="
  | .comparison => ∃ operator : ComparisonOperator,
      word.text = operator.symbol
  | .arithmetic => ∃ operator : ArithmeticOperator,
      word.text = operator.symbol
  | .keyword keyword => word.text = keyword.spelling
  | .delimiter => word.text = ";"
  | .openBracket => ∃ bracket : Bracket,
      word.text = String.singleton bracket.opening
  | .closeBracket => ∃ bracket : Bracket,
      word.text = String.singleton bracket.closing

/-- The character, directly after the word, would change how it is read. -/
def clings (word : Word) (character : Char) : Bool :=
  match word.kind with
  | .identifier | .keyword _ => character.isAlphanum
  | .constant => Numeral.clings character
  | _ => false

theorem numeral_clings_of_clings
    {word : Word}
    {character : Char}
    (clings : word.clings character = true) :
    Numeral.clings character = true := by
  unfold Word.clings at clings
  unfold Numeral.clings at clings ⊢
  split at clings <;> simp_all

/-- The word of a reserved word. -/
def ofKeyword (keyword : Keyword) : Word :=
  ⟨.keyword keyword, keyword.spelling⟩

/-- The word that ends a statement. -/
def delimiter : Word :=
  ⟨.delimiter, ";"⟩

/-- The word between the target of an assignment and its value. -/
def assignment : Word :=
  ⟨.assignment, ":="⟩

/-- The word that opens a group. -/
def opening (bracket : Bracket) : Word :=
  ⟨.openBracket, String.singleton bracket.opening⟩

/-- The word that closes a group. -/
def closing (bracket : Bracket) : Word :=
  ⟨.closeBracket, String.singleton bracket.closing⟩

end Word

/-! ## The words of a program -/

/-- The word of an operand. -/
def Operand.word : Operand → Word
  | identifier text => ⟨.identifier, text⟩
  | constant text => ⟨.constant, text⟩

end ConditionalAssignment
