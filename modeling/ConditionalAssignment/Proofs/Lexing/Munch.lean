import ConditionalAssignment.Cursor
import ConditionalAssignment.Proofs.Word

/-!
# Lexemes and valid words

A lexeme that makes a token makes a valid word, and a valid word is taken as one
lexeme wherever the text behind it does not cling to it.  The two directions
together say that the scanner knows exactly the valid words.
-/

namespace ConditionalAssignment

/-! ## Blanks start no word -/

theorem isBlank_eq_true_iff (character : Char) :
    isBlank character = true ↔
      character = ' ' ∨ character = '\t' ∨ character = '\n' ∨
        character = '\x0c' ∨ character = '\r' := by
  simp only [isBlank, Bool.or_eq_true, beq_iff_eq, or_assoc]

theorem isBlank_of_isAlphanum
    {character : Char}
    (isAlphanum : character.isAlphanum = true) :
    isBlank character = false := by
  rw [Bool.eq_false_iff, Ne, isBlank_eq_true_iff]
  rintro (rfl | rfl | rfl | rfl | rfl) <;> exact absurd isAlphanum (by decide)

/-- A blank clings to nothing. -/
theorem numeral_clings_of_isBlank
    {character : Char}
    (blank : isBlank character = true) :
    Numeral.clings character = false := by
  rw [isBlank_eq_true_iff] at blank
  rcases blank with rfl | rfl | rfl | rfl | rfl <;> decide

/-- A name holds only letters and digits. -/
theorem IsName.isAlphanum_of_mem
    {text : String}
    (isName : IsName text) :
    ∀ character ∈ text.toList, character.isAlphanum = true := by
  obtain ⟨⟨letter, others, text_eq, isAlpha, areAlphanum⟩, _⟩ := isName
  rw [text_eq, List.forall_mem_cons]
  exact ⟨isAlphanum_of_isAlpha isAlpha, areAlphanum⟩

/-- A number holds only letters, digits, points and signs. -/
theorem IsNumber.isAlphanum_or_of_mem
    {text : String}
    (isNumber : IsNumber text) :
    ∀ character ∈ text.toList,
      character.isAlphanum = true ∨ character ∈ ['.', '+', '-'] := by
  have isSpelling : Numeral.IsSpelling text.toList := isNumber
  obtain ⟨digit, others, text_eq, isDigit⟩ := isSpelling.exists_digit
  rw [text_eq] at isSpelling ⊢
  -- The scanner takes all of a number, so it takes what follows the digit.
  have others_eq :=
    Numeral.continuation_append_of_stops isSpelling (Stops.nil Numeral.clings)
  rw [List.append_nil] at others_eq
  rw [List.forall_mem_cons]
  refine ⟨Or.inl (isAlphanum_of_isDigit isDigit), ?_⟩
  intro character member
  rw [← others_eq] at member
  exact Numeral.isAlphanum_or_mem_of_mem_continuation member

theorem isAlpha_of_isDigit
    {character : Char}
    (isDigit : character.isDigit = true) :
    character.isAlpha = false := by
  have atMost : character.toNat ≤ 57 := (Char.isDigit_iff_toNat.mp isDigit).2
  cases isAlpha : character.isAlpha with
  | false => rfl
  | true =>
      have cases_eq : (character.isUpper || character.isLower) = true := isAlpha
      rcases Bool.or_eq_true_iff.mp cases_eq with isUpper | isLower
      · have bounds := of_decide_eq_true isUpper
        have atLeast : 65 ≤ character.toNat :=
          UInt32.le_iff_toNat_le.mp bounds.1
        omega
      · have bounds := Bool.and_eq_true_iff.mp isLower
        have atLeast : 97 ≤ character.toNat :=
          UInt32.le_iff_toNat_le.mp (of_decide_eq_true bounds.1)
        omega

/-! ## A lexeme makes a valid word -/

/-- If the lexeme makes a token, it makes a valid word, and the text behind it
does not cling to the word. -/
def Lexeme.MakesWord (lexeme : Lexeme) (behind : List Char) : Prop :=
  ∀ kind, lexeme.verdict = .ok kind →
    Word.IsValid ⟨kind, String.ofList lexeme.text⟩ ∧
      Stops (Word.clings ⟨kind, String.ofList lexeme.text⟩) behind

namespace Lexeme

theorem isValid_wordKind
    {letter : Char}
    {others : List Char}
    (isAlpha : letter.isAlpha = true)
    (isWord : ∀ character ∈ others, character.isAlphanum = true) :
    Word.IsValid
      ⟨wordKind (String.ofList (letter :: others)),
        String.ofList (letter :: others)⟩ := by
  unfold wordKind
  split
  · rename_i keyword found
    exact Keyword.ofSpelling?_eq_some_iff.mp found
  · rename_i notFound
    refine ⟨⟨letter, others, String.toList_ofList, isAlpha, isWord⟩, ?_⟩
    intro keyword text_eq
    rw [Keyword.ofSpelling?_eq_some_iff.mpr text_eq] at notFound
    cases notFound

theorem clings_wordKind (text other : String) :
    Word.clings ⟨wordKind text, other⟩ = Char.isAlphanum := by
  unfold wordKind
  split <;> rfl

theorem makesWord_word
    {letter : Char}
    (isAlpha : letter.isAlpha = true)
    (rest : List Char) :
    (word letter rest).MakesWord
      (rest.drop (word letter rest).tail.length) := by
  intro kind accepted
  cases accepted
  constructor
  · apply isValid_wordKind isAlpha
    intro character member
    have taken := List.all_takeWhile (p := Char.isAlphanum) (l := rest)
    exact List.all_eq_true.mp taken character member
  · rw [clings_wordKind]
    exact Stops.drop_length_takeWhile Char.isAlphanum rest

theorem makesWord_numeral
    {digit : Char}
    (isDigit : digit.isDigit = true)
    (rest : List Char) :
    (numeral digit rest).MakesWord
      (rest.drop (numeral digit rest).tail.length) := by
  intro kind accepted
  have stops :=
    Stops.drop_length_takeWhile Numeral.clings
      (rest.drop (Numeral.continuation rest).length)
  unfold numeral at accepted ⊢
  dsimp only at accepted ⊢
  generalize (rest.drop (Numeral.continuation rest).length).takeWhile
    Numeral.clings = excess at accepted stops ⊢
  cases excess with
  | nil =>
      cases accepted
      constructor
      · simp only [Word.IsValid, IsNumber, text, String.toList_ofList]
        exact Numeral.isSpelling_cons_continuation isDigit rest
      · exact stops
  | cons first others => cases accepted

theorem makesWord_colon (rest : List Char) :
    (colon rest).MakesWord (rest.drop (colon rest).tail.length) := by
  intro kind accepted
  unfold colon at accepted ⊢
  split at accepted
  · cases accepted
    exact ⟨rfl, fun _ _ => rfl⟩
  · cases accepted

theorem isValid_of_ofSymbol?
    {character : Char}
    {kind : TokenKind}
    (found : TokenKind.ofSymbol? character = some kind) :
    Word.IsValid ⟨kind, String.ofList [character]⟩ ∧
      Word.clings ⟨kind, String.ofList [character]⟩ = fun _ => false := by
  unfold TokenKind.ofSymbol? at found
  split at found <;> cases found
  · exact ⟨⟨.less, rfl⟩, rfl⟩
  · exact ⟨⟨.greater, rfl⟩, rfl⟩
  · exact ⟨⟨.equal, rfl⟩, rfl⟩
  · exact ⟨⟨.add, rfl⟩, rfl⟩
  · exact ⟨⟨.subtract, rfl⟩, rfl⟩
  · exact ⟨⟨.multiply, rfl⟩, rfl⟩
  · exact ⟨⟨.divide, rfl⟩, rfl⟩
  · exact ⟨rfl, rfl⟩
  · exact ⟨⟨.round, rfl⟩, rfl⟩
  · exact ⟨⟨.square, rfl⟩, rfl⟩
  · exact ⟨⟨.curly, rfl⟩, rfl⟩
  · exact ⟨⟨.round, rfl⟩, rfl⟩
  · exact ⟨⟨.square, rfl⟩, rfl⟩
  · exact ⟨⟨.curly, rfl⟩, rfl⟩

theorem makesWord_symbol (character : Char) (behind : List Char) :
    (symbol character).MakesWord behind := by
  intro kind accepted
  unfold symbol at accepted ⊢
  cases found : TokenKind.ofSymbol? character with
  | none => simp [found] at accepted
  | some foundKind =>
      simp only [found] at accepted ⊢
      cases accepted
      obtain ⟨isValid, clings_eq⟩ := isValid_of_ofSymbol? found
      refine ⟨isValid, ?_⟩
      unfold text
      rw [clings_eq]
      exact fun _ _ => rfl

/-- Every lexeme that makes a token makes a valid word. -/
theorem makesWord_munch (character : Char) (rest : List Char) :
    (munch character rest).MakesWord
      (rest.drop (munch character rest).tail.length) := by
  unfold munch
  split
  · rename_i isAlpha
    exact makesWord_word isAlpha rest
  · split
    · rename_i isDigit
      exact makesWord_numeral isDigit rest
    · split
      · exact makesWord_colon rest
      · exact makesWord_symbol character _

/-! ## A valid word is one lexeme -/

theorem munch_word
    {letter : Char}
    {others rest : List Char}
    (isAlpha : letter.isAlpha = true)
    (isWord : ∀ character ∈ others, character.isAlphanum = true)
    (stops : Stops Char.isAlphanum rest) :
    munch letter (others ++ rest) =
      ⟨letter, others, .ok (wordKind (String.ofList (letter :: others)))⟩ := by
  simp only [munch, isAlpha, if_true, word,
    takeWhile_append_of_stops isWord stops]

theorem munch_numeral
    {digit : Char}
    {others rest : List Char}
    (isDigit : digit.isDigit = true)
    (isSpelling : Numeral.IsSpelling (digit :: others))
    (stops : Stops Numeral.clings rest) :
    munch digit (others ++ rest) = ⟨digit, others, .ok .constant⟩ := by
  have excess_eq := takeWhile_of_stops stops
  simp only [munch, isAlpha_of_isDigit isDigit, isDigit, numeral,
    Numeral.continuation_append_of_stops isSpelling stops, List.drop_left,
    excess_eq, Bool.false_eq_true, if_false, if_true]

theorem wordKind_spelling (keyword : Keyword) :
    wordKind keyword.spelling = .keyword keyword := by
  cases keyword <;> rfl

theorem wordKind_of_isName
    {name : String}
    (isName : IsName name) :
    wordKind name = .identifier := by
  unfold wordKind
  split
  · rename_i keyword found
    have text_eq := Keyword.ofSpelling?_eq_some_iff.mp found
    exact absurd text_eq (isName.2 keyword)
  · rfl

theorem spelling_isWord (keyword : Keyword) :
    ∃ letter others,
      keyword.spelling.toList = letter :: others ∧ letter.isAlpha = true ∧
        ∀ character ∈ others, character.isAlphanum = true := by
  cases keyword
  · exact ⟨'i', ['f'], rfl, rfl, List.all_eq_true.mp rfl⟩
  · exact ⟨'t', ['h', 'e', 'n'], rfl, rfl, List.all_eq_true.mp rfl⟩
  · exact ⟨'e', ['l', 's', 'e'], rfl, rfl, List.all_eq_true.mp rfl⟩

/-- A lexeme that takes a whole word and starts with no blank. -/
def Takes (rest : List Char) (taken : Word) : Prop :=
  ∃ head tail,
    taken.text.toList = head :: tail ∧ isBlank head = false ∧
      munch head (tail ++ rest) = ⟨head, tail, .ok taken.kind⟩

/-- A valid word is taken whole where nothing that clings to it follows. -/
theorem takes_of_isValid
    {taken : Word}
    {rest : List Char}
    (isValid : taken.IsValid)
    (stops : Stops taken.clings rest) :
    Takes rest taken := by
  obtain ⟨kind, text⟩ := taken
  cases kind with
  | identifier =>
      have isName : IsName text := isValid
      have ⟨⟨letter, others, text_eq, isAlpha, isWord⟩, _⟩ := isName
      refine ⟨letter, others, text_eq,
        isBlank_of_isAlphanum (isAlphanum_of_isAlpha isAlpha), ?_⟩
      rw [munch_word isAlpha isWord stops, ← text_eq, String.ofList_toList,
        wordKind_of_isName isName]
  | keyword keyword =>
      obtain ⟨letter, others, spelling_eq, isAlpha, isWord⟩ :=
        spelling_isWord keyword
      cases isValid
      refine ⟨letter, others, spelling_eq,
        isBlank_of_isAlphanum (isAlphanum_of_isAlpha isAlpha), ?_⟩
      rw [munch_word isAlpha isWord stops, ← spelling_eq,
        String.ofList_toList, wordKind_spelling]
  | constant =>
      have isSpelling : Numeral.IsSpelling text.toList := isValid
      obtain ⟨digit, others, text_eq, isDigit⟩ := isSpelling.exists_digit
      rw [text_eq] at isSpelling
      exact ⟨digit, others, text_eq,
        isBlank_of_isAlphanum (isAlphanum_of_isDigit isDigit),
        munch_numeral isDigit isSpelling stops⟩
  | assignment =>
      cases isValid
      exact ⟨':', ['='], rfl, rfl, rfl⟩
  | comparison =>
      obtain ⟨operator, rfl⟩ := isValid
      cases operator
      · exact ⟨'<', [], rfl, rfl, rfl⟩
      · exact ⟨'>', [], rfl, rfl, rfl⟩
      · exact ⟨'=', [], rfl, rfl, rfl⟩
  | arithmetic =>
      obtain ⟨operator, rfl⟩ := isValid
      cases operator
      · exact ⟨'+', [], rfl, rfl, rfl⟩
      · exact ⟨'-', [], rfl, rfl, rfl⟩
      · exact ⟨'*', [], rfl, rfl, rfl⟩
      · exact ⟨'/', [], rfl, rfl, rfl⟩
  | delimiter =>
      cases isValid
      exact ⟨';', [], rfl, rfl, rfl⟩
  | openBracket =>
      obtain ⟨bracket, rfl⟩ := isValid
      refine ⟨bracket.opening, [], String.toList_singleton _, ?_, ?_⟩ <;>
        cases bracket <;> rfl
  | closeBracket =>
      obtain ⟨bracket, rfl⟩ := isValid
      refine ⟨bracket.closing, [], String.toList_singleton _, ?_, ?_⟩ <;>
        cases bracket <;> rfl

end Lexeme

/-- A text is a spelling of one kind at most. -/
theorem Word.IsValid.eq_of_text_eq
    {left right : Word}
    (leftValid : left.IsValid)
    (rightValid : right.IsValid)
    (text_eq : left.text = right.text) :
    left = right := by
  obtain ⟨leftHead, leftTail, leftText_eq, _, leftMunch⟩ :=
    Lexeme.takes_of_isValid leftValid (Stops.nil left.clings)
  obtain ⟨rightHead, rightTail, rightText_eq, _, rightMunch⟩ :=
    Lexeme.takes_of_isValid rightValid (Stops.nil right.clings)
  rw [← text_eq, leftText_eq] at rightText_eq
  obtain ⟨rfl, rfl⟩ := List.cons.inj rightText_eq
  have kind_eq : left.kind = right.kind := by
    rw [leftMunch] at rightMunch
    exact Except.ok.inj (congrArg Lexeme.verdict rightMunch)
  obtain ⟨leftKind, leftText⟩ := left
  obtain ⟨rightKind, rightText⟩ := right
  cases kind_eq
  cases text_eq
  rfl

end ConditionalAssignment
