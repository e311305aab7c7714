import ConditionalAssignment.Numeral
import ConditionalAssignment.Token

/-!
# Lexemes

A lexeme is the stretch of text that is read as one unit, together with a
verdict: the kind of token that it makes, or the reason why it makes none.
The first character decides what is looked for, and the lexeme is then as long
as possible.  A lexeme keeps its first character apart, so it is never empty
and reading always moves on.
-/

namespace ConditionalAssignment

/-- A reason why a stretch of text makes no token. -/
inductive LexFault where
  /-- No token starts with the character. -/
  | unexpectedCharacter (character : Char)
  /-- A colon stands without an equals sign after it. -/
  | loneColon
  /-- A numeral runs into letters, digits or points. -/
  | malformedConstant (text : String)
deriving DecidableEq

/-- The text of a lexical fault. -/
def LexFault.message : LexFault → String
  | unexpectedCharacter character => s!"unexpected character: {character}"
  | loneColon => "expected '=' after ':'"
  | malformedConstant text => s!"malformed numeric constant: {text}"

/-- The kind of a token that is one symbol. -/
def TokenKind.ofSymbol? : Char → Option TokenKind
  | '<' | '>' | '=' => some .comparison
  | '+' | '-' | '*' | '/' => some .arithmetic
  | ';' => some .delimiter
  | '(' | '[' | '{' => some .openBracket
  | ')' | ']' | '}' => some .closeBracket
  | _ => none

/-- Every symbol is one byte. -/
theorem TokenKind.utf8Size_of_ofSymbol?
    {character : Char}
    {kind : TokenKind}
    (found : ofSymbol? character = some kind) :
    character.utf8Size = 1 := by
  unfold ofSymbol? at found
  split at found <;> first | rfl | cases found

/-- A stretch of text read as one unit. -/
structure Lexeme where
  /-- The first character. -/
  head : Char
  /-- The characters after the first. -/
  tail : List Char
  /-- The kind of token that the text makes, or the reason why it makes none. -/
  verdict : Except LexFault TokenKind

namespace Lexeme

/-- All characters of a lexeme. -/
def text (lexeme : Lexeme) : List Char :=
  lexeme.head :: lexeme.tail

/-- The kind of a word. -/
def wordKind (word : String) : TokenKind :=
  match Keyword.ofSpelling? word with
  | some keyword => .keyword keyword
  | none => .identifier

/-- The word that starts with a letter. -/
def word (letter : Char) (rest : List Char) : Lexeme :=
  let tail := rest.takeWhile Char.isAlphanum
  ⟨letter, tail, .ok (wordKind (String.ofList (letter :: tail)))⟩

/-- The numeral that starts with a digit, or the run that spoils it. -/
def numeral (digit : Char) (rest : List Char) : Lexeme :=
  let tail := Numeral.continuation rest
  match (rest.drop tail.length).takeWhile Numeral.clings with
  | [] => ⟨digit, tail, .ok .constant⟩
  | excess =>
      ⟨digit, tail ++ excess,
        .error (.malformedConstant
          (String.ofList (digit :: (tail ++ excess))))⟩

/-- The assignment sign that starts with a colon, or the colon alone. -/
def colon : List Char → Lexeme
  | '=' :: _ => ⟨':', ['='], .ok .assignment⟩
  | _ => ⟨':', [], .error .loneColon⟩

/-- The symbol that is one character, or a character that starts no token. -/
def symbol (character : Char) : Lexeme :=
  match TokenKind.ofSymbol? character with
  | some kind => ⟨character, [], .ok kind⟩
  | none => ⟨character, [], .error (.unexpectedCharacter character)⟩

/-- The lexeme at the front of a text that starts with a given character. -/
def munch (character : Char) (rest : List Char) : Lexeme :=
  if character.isAlpha then
    word character rest
  else if character.isDigit then
    numeral character rest
  else if character = ':' then
    colon rest
  else
    symbol character

/-- A lexeme starts where the text starts. -/
@[simp] theorem head_munch (character : Char) (rest : List Char) :
    (munch character rest).head = character := by
  unfold munch
  split
  · rfl
  · split
    · unfold numeral
      dsimp only
      split <;> rfl
    · split
      · rename_i isColon
        unfold colon
        split <;> exact isColon.symm
      · unfold symbol
        split <;> rfl

/-- A lexeme takes its text from the front. -/
theorem isPrefix_tail_munch (character : Char) (rest : List Char) :
    (munch character rest).tail <+: rest := by
  unfold munch
  split
  · exact List.takeWhile_prefix _
  · split
    · unfold numeral
      dsimp only
      have taken := Numeral.isPrefix_continuation rest
      split
      · exact taken
      · exact Numeral.isPrefix_append_drop taken (List.takeWhile_prefix _)
    · split
      · unfold colon
        split
        · exact List.cons_prefix_cons.mpr ⟨rfl, List.nil_prefix⟩
        · exact List.nil_prefix
      · unfold symbol
        split <;> exact List.nil_prefix

/-- A lexeme and the text behind it are the whole text. -/
theorem text_munch_append_drop (character : Char) (rest : List Char) :
    (munch character rest).text ++
        rest.drop (munch character rest).tail.length =
      character :: rest := by
  obtain ⟨behind, whole⟩ := isPrefix_tail_munch character rest
  unfold text
  rw [head_munch, List.cons_append]
  generalize (munch character rest).tail = tail at whole
  subst whole
  rw [List.drop_left]

/-! ## The characters of a lexeme

A lexeme holds no character of more than one byte, unless it is a character that
starts no token, and it does not go over the end of a line.  So moving over its
characters and moving over its bytes come to the same place.
-/

section

variable {head character : Char} {rest : List Char}

/-- Letters, digits, points and signs continue a numeral, also if it is
spoilt. -/
theorem isAlphanum_or_mem_of_mem_tail_numeral
    (member : character ∈ (numeral head rest).tail) :
    character.isAlphanum = true ∨ character ∈ ['.', '+', '-'] := by
  unfold numeral at member
  dsimp only at member
  split at member
  · exact Numeral.isAlphanum_or_mem_of_mem_continuation member
  · obtain taken | excess := List.mem_append.mp member
    · exact Numeral.isAlphanum_or_mem_of_mem_continuation taken
    · have clings : Numeral.clings character = true :=
        List.all_eq_true.mp List.all_takeWhile character excess
      obtain isAlphanum | isPoint := Bool.or_eq_true_iff.mp clings
      · exact Or.inl isAlphanum
      · rw [beq_iff_eq.mp isPoint]
        exact Or.inr List.mem_cons_self

/-- The characters that a lexeme may hold behind its first one. -/
theorem isAlphanum_or_mem_of_mem_tail_munch
    (member : character ∈ (munch head rest).tail) :
    character.isAlphanum = true ∨ character ∈ ['=', '.', '+', '-'] := by
  unfold munch at member
  split at member
  · exact Or.inl (List.all_eq_true.mp List.all_takeWhile character member)
  · split at member
    · exact (isAlphanum_or_mem_of_mem_tail_numeral member).imp_right
        (List.mem_cons_of_mem _)
    · split at member
      · unfold colon at member
        split at member
        · rw [List.mem_singleton.mp member]
          exact Or.inr List.mem_cons_self
        · cases member
      · unfold symbol at member
        split at member <;> cases member

/-- The first character of a lexeme is one byte, unless it is unexpected. -/
theorem utf8Size_head_munch
    (expected :
      (munch head rest).verdict ≠ .error (.unexpectedCharacter head)) :
    head.utf8Size = 1 := by
  unfold munch at expected
  split at expected
  · rename_i isAlpha
    exact utf8Size_of_isAlphanum (isAlphanum_of_isAlpha isAlpha)
  · split at expected
    · rename_i isDigit
      exact utf8Size_of_isAlphanum (isAlphanum_of_isDigit isDigit)
    · split at expected
      · rename_i isColon
        rw [isColon]
        rfl
      · unfold symbol at expected
        split at expected
        · rename_i found
          exact TokenKind.utf8Size_of_ofSymbol? found
        · exact absurd rfl expected

/-- Every character of a lexeme other than an unexpected character is one
byte. -/
theorem utf8Size_of_mem_text_munch
    (expected :
      (munch head rest).verdict ≠ .error (.unexpectedCharacter head))
    (member : character ∈ (munch head rest).text) :
    character.utf8Size = 1 := by
  rw [text, head_munch, List.mem_cons] at member
  obtain rfl | tailMember := member
  · exact utf8Size_head_munch expected
  · obtain isAlphanum | isOther :=
      isAlphanum_or_mem_of_mem_tail_munch tailMember
    · exact utf8Size_of_isAlphanum isAlphanum
    · simp only [List.mem_cons, List.not_mem_nil, or_false] at isOther
      obtain rfl | rfl | rfl | rfl := isOther <;> rfl

/-- A lexeme goes over no line feed unless it starts with one. -/
theorem lineFeed_not_mem_text_munch
    (isOther : head ≠ '\n') :
    '\n' ∉ (munch head rest).text := by
  rw [text, head_munch, List.mem_cons]
  rintro (isHead | tailMember)
  · exact isOther isHead.symm
  · exact absurd (isAlphanum_or_mem_of_mem_tail_munch tailMember) (by decide)

end

end Lexeme

end ConditionalAssignment
