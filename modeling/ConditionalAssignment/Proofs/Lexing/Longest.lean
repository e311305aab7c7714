import ConditionalAssignment.Proofs.Lexing.Place
import Mathlib

/-!
# Words and numerals are as long as possible

The scanner takes a numeral part by part and decides after a few characters
whether a fraction or an exponent follows, and it never goes back.  Nothing is
lost by that: among all numerals at the front of a text it takes the longest
one.  Words are longest runs of letters and digits.  The main result says so of
every item of a text, and when a numeral makes a constant.
-/

namespace ConditionalAssignment

/-- The longest of the parts at the front of a text that have a property. -/
def IsLongestPrefix
    (property : List Char → Prop)
    (taken text : List Char) : Prop :=
  taken <+: text ∧ property taken ∧
    ∀ other, other <+: text → property other → other.length ≤ taken.length

/-- The part consists of characters that satisfy a test. -/
def IsRunOf (test : Char → Bool) (part : List Char) : Prop :=
  ∀ character ∈ part, test character = true

theorem IsRunOf.prefix_takeWhile
    {test : Char → Bool}
    {part text : List Char}
    (isRun : IsRunOf test part)
    (isPrefix : part <+: text) :
    part <+: text.takeWhile test := by
  obtain ⟨behind, rfl⟩ := isPrefix
  rw [List.takeWhile_append_of_pos isRun]
  exact List.prefix_append _ _

/-- A scan with a test takes the longest run. -/
theorem isLongestPrefix_takeWhile (test : Char → Bool) (text : List Char) :
    IsLongestPrefix (IsRunOf test) (text.takeWhile test) text := by
  refine ⟨List.takeWhile_prefix _, ?_, ?_⟩
  · exact List.all_eq_true.mp List.all_takeWhile
  · intro other isPrefix isRun
    exact (isRun.prefix_takeWhile isPrefix).length_le

/-! ## The longest numeral -/

namespace Numeral

/-- Digits with a part behind them are at the front of all digits with the
longest such part. -/
theorem digits_append_prefix
    {run part text longest : List Char}
    (isRun : IsRunOf Char.isDigit run)
    (stops : Stops Char.isDigit part)
    (isPrefix : run ++ part <+: text)
    (partPrefix :
      part <+: text.drop (digits text).length → part <+: longest) :
    run ++ part <+: digits text ++ longest := by
  obtain ⟨beyond, rfl⟩ := isPrefix
  rw [List.append_assoc] at partPrefix ⊢
  have digits_eq :
      digits (run ++ (part ++ beyond)) = run ++ digits (part ++ beyond) :=
    List.takeWhile_append_of_pos isRun
  rw [digits_eq] at partPrefix ⊢
  rw [List.append_assoc, List.prefix_append_right_inj]
  -- If the part is not empty, its start ends the digits, so they are all that
  -- there are.
  cases part with
  | nil => exact List.nil_prefix
  | cons first others =>
      have noDigit := stops first rfl
      have noDigits : digits (first :: others ++ beyond) = [] := by
        simp [digits, noDigit]
      rw [noDigits, List.nil_append]
      apply partPrefix
      rw [noDigits, List.append_nil, List.drop_left]
      exact List.prefix_append _ _

/-- An exponent at the front of a text is at the front of the one taken. -/
theorem IsExponent.prefix_exponent
    {part text : List Char}
    (isExponent : IsExponent part)
    (isPrefix : part <+: text) :
    part <+: exponent text := by
  obtain ⟨beyond, rfl⟩ := isPrefix
  obtain rfl | ⟨mark, sign, run, isMark, isSign, isDigits, rfl⟩ := isExponent
  · exact List.nil_prefix
  · have sign_eq := sign_append isSign isDigits beyond
    have digits_eq : digits (run ++ beyond) = run ++ digits beyond :=
      List.takeWhile_append_of_pos isDigits.2
    obtain ⟨digit, others, rfl⟩ := List.exists_cons_of_ne_nil isDigits.1
    rw [List.append_assoc] at sign_eq
    have exponent_eq :
        exponent (mark :: (sign ++ (digit :: others ++ beyond))) =
          mark :: (sign ++ (digit :: others ++ digits beyond)) := by
      simp only [exponent, isMark, if_true, sign_eq, List.drop_left, digits_eq]
      rfl
    rw [List.cons_append, List.append_assoc, exponent_eq, ← List.append_assoc,
      ← List.cons_append]
    exact List.prefix_append _ _

/-- An exponent does not start with a digit or a point. -/
theorem IsExponent.stops
    {part : List Char}
    (isExponent : IsExponent part) :
    Stops (fun character => character.isDigit || character == '.') part := by
  have stops := isExponent.stops_append (Stops.nil clings)
  rwa [List.append_nil] at stops

theorem IsExponent.stops_isDigit
    {part : List Char}
    (isExponent : IsExponent part) :
    Stops Char.isDigit part :=
  isExponent.stops.mono fun character isDigit => by simp [isDigit]

/-- Digits behind a point are a fraction. -/
theorem scale_point
    {rest : List Char}
    (nonempty : digits rest ≠ []) :
    scale ('.' :: rest) =
      '.' :: (digits rest ++ exponent (rest.drop (digits rest).length)) := by
  obtain ⟨digit, others, digits_eq⟩ := List.exists_cons_of_ne_nil nonempty
  simp [scale, fraction, digits_eq]

/-- A fraction and an exponent at the front of a text are at the front of those
taken. -/
theorem prefix_scale
    {first second text : List Char}
    (isFraction : IsFraction first)
    (isExponent : IsExponent second)
    (isPrefix : first ++ second <+: text) :
    first ++ second <+: scale text := by
  obtain ⟨beyond, rfl⟩ := isPrefix
  obtain rfl | ⟨run, isDigits, rfl⟩ := isFraction
  · cases second with
    | nil => exact List.nil_prefix
    | cons mark others =>
        have noPoint : mark ≠ '.' := by
          rintro rfl
          exact absurd (isExponent.stops '.' rfl) (by decide)
        have noFraction : fraction ([] ++ mark :: others ++ beyond) = [] := by
          simp [fraction, noPoint]
        rw [scale, noFraction]
        exact isExponent.prefix_exponent (List.prefix_append _ _)
  · have digits_eq :
        digits (run ++ second ++ beyond) = run ++ digits (second ++ beyond) := by
      rw [List.append_assoc]
      exact List.takeWhile_append_of_pos isDigits.2
    have nonempty : digits (run ++ second ++ beyond) ≠ [] := by
      rw [digits_eq]
      exact List.append_ne_nil_of_left_ne_nil isDigits.1 _
    rw [List.cons_append, List.cons_append, scale_point nonempty,
      List.prefix_cons_inj]
    exact digits_append_prefix isDigits.2 isExponent.stops_isDigit
      (List.prefix_append _ _) isExponent.prefix_exponent

/-- A fraction and an exponent do not start with a digit. -/
theorem IsFraction.stops_append
    {first second : List Char}
    (isFraction : IsFraction first)
    (isExponent : IsExponent second) :
    Stops Char.isDigit (first ++ second) := by
  obtain rfl | ⟨run, _, rfl⟩ := isFraction
  · exact isExponent.stops_isDigit
  · exact Stops.cons (by decide) _

/-- A digit and what continues it are the longest numeral at the front of a
text that starts with the digit. -/
theorem isLongestPrefix_continuation
    {digit : Char}
    (isDigit : digit.isDigit = true)
    (rest : List Char) :
    IsLongestPrefix IsSpelling (digit :: continuation rest) (digit :: rest) := by
  refine ⟨?_, isSpelling_cons_continuation isDigit rest, ?_⟩
  · exact (List.prefix_cons_inj digit).mpr (isPrefix_continuation rest)
  · rintro _ isPrefix
      ⟨whole, fractionText, exponentText, isDigits, isFraction, isExponent, rfl⟩
    obtain ⟨first, others, rfl⟩ := List.exists_cons_of_ne_nil isDigits.1
    rw [List.cons_append, List.cons_append, List.cons_prefix_cons,
      List.append_assoc] at isPrefix
    obtain ⟨rfl, isPrefix⟩ := isPrefix
    have taken :
        others ++ (fractionText ++ exponentText) <+: continuation rest :=
      digits_append_prefix
        (fun character member => isDigits.2 character (.tail _ member))
        (isFraction.stops_append isExponent) isPrefix
        (prefix_scale isFraction isExponent)
    rw [List.cons_append, List.cons_append, List.append_assoc,
      List.length_cons, List.length_cons]
    exact Nat.succ_le_succ taken.length_le

end Numeral

/-! ## Items -/

namespace LexItem

/-- The item is the word that is the longest run of letters and digits at the
front of a text: a reserved word if it is spelled like one, else a name. -/
def IsLongestWord (item : LexItem) (text : List Char) : Prop :=
  ∃ token,
    item = .ok token ∧
      IsLongestPrefix (IsRunOf Char.isAlphanum) token.text.toList text ∧
        (∀ keyword,
          token.kind = .keyword keyword ↔ token.text = keyword.spelling) ∧
          (token.kind = .identifier ↔
            ∀ keyword : Keyword, token.text ≠ keyword.spelling)

/-- The item is the constant that is the longest numeral at the front of a text,
or, if the numeral runs into letters, digits or points, the fault that names the
numeral with all of these. -/
def IsLongestNumber (item : LexItem) (text : List Char) : Prop :=
  ∃ numeral behind,
    text = numeral ++ behind ∧
      IsLongestPrefix Numeral.IsSpelling numeral text ∧
        (Stops Numeral.clings behind →
          ∃ token,
            item = .ok token ∧
              token.word = ⟨.constant, String.ofList numeral⟩) ∧
          (¬ Stops Numeral.clings behind →
            ∃ excess error,
              IsLongestPrefix (IsRunOf Numeral.clings) excess behind ∧
                item = .error error ∧
                  error.fault =
                    .malformedConstant (String.ofList (numeral ++ excess)))

end LexItem

namespace Lexeme

/-- A run of letters and digits is a reserved word exactly if it is spelled like
one. -/
theorem wordKind_eq_keyword_iff {text : String} {keyword : Keyword} :
    wordKind text = .keyword keyword ↔ text = keyword.spelling := by
  rw [← Keyword.ofSpelling?_eq_some_iff]
  unfold wordKind
  cases Keyword.ofSpelling? text <;> simp

theorem wordKind_eq_identifier_iff {text : String} :
    wordKind text = .identifier ↔
      ∀ keyword : Keyword, text ≠ keyword.spelling := by
  constructor
  · intro isIdentifier keyword text_eq
    rw [wordKind_eq_keyword_iff.mpr text_eq] at isIdentifier
    cases isIdentifier
  · intro isOther
    unfold wordKind
    cases found : Keyword.ofSpelling? text with
    | none => rfl
    | some keyword =>
        exact absurd (Keyword.ofSpelling?_eq_some_iff.mp found) (isOther keyword)

theorem isLongestWord_munch
    {letter : Char}
    (isAlpha : letter.isAlpha = true)
    (rest : List Char)
    (position : Position) :
    ((munch letter rest).item position).IsLongestWord (letter :: rest) := by
  have text_eq :
      letter :: rest.takeWhile Char.isAlphanum =
        (letter :: rest).takeWhile Char.isAlphanum := by
    rw [List.takeWhile_cons_of_pos (isAlphanum_of_isAlpha isAlpha)]
  have item_eq :
      (munch letter rest).item position =
        .ok
          ⟨wordKind
              (String.ofList ((letter :: rest).takeWhile Char.isAlphanum)),
            String.ofList ((letter :: rest).takeWhile Char.isAlphanum),
            position⟩ := by
    rw [munch, if_pos isAlpha, ← text_eq]
    rfl
  refine ⟨_, item_eq, ?_, fun keyword => wordKind_eq_keyword_iff,
    wordKind_eq_identifier_iff⟩
  rw [String.toList_ofList]
  exact isLongestPrefix_takeWhile _ _

/-- A numeral is spoilt by what clings to it. -/
theorem munch_digit
    {digit : Char}
    (isDigit : digit.isDigit = true)
    {rest behind : List Char}
    (rest_eq : rest = Numeral.continuation rest ++ behind) :
    munch digit rest =
      match behind.takeWhile Numeral.clings with
      | [] => ⟨digit, Numeral.continuation rest, .ok .constant⟩
      | excess =>
          ⟨digit, Numeral.continuation rest ++ excess,
            .error (.malformedConstant
              (String.ofList
                (digit :: (Numeral.continuation rest ++ excess))))⟩ := by
  have behind_eq : rest.drop (Numeral.continuation rest).length = behind := by
    have dropped :=
      congrArg (List.drop (Numeral.continuation rest).length) rest_eq
    rwa [List.drop_left] at dropped
  rw [munch, isAlpha_of_isDigit isDigit, if_pos isDigit, numeral, behind_eq]
  rfl

theorem isLongestNumber_munch
    {digit : Char}
    (isDigit : digit.isDigit = true)
    (rest : List Char)
    (position : Position) :
    ((munch digit rest).item position).IsLongestNumber (digit :: rest) := by
  obtain ⟨behind, rest_eq⟩ := Numeral.isPrefix_continuation rest
  have munch_eq := munch_digit isDigit rest_eq.symm
  refine ⟨digit :: Numeral.continuation rest, behind, ?_,
    Numeral.isLongestPrefix_continuation isDigit rest, ?_, ?_⟩
  · rw [List.cons_append, rest_eq]
  · intro stops
    rw [takeWhile_of_stops stops] at munch_eq
    rw [munch_eq]
    exact ⟨_, rfl, rfl⟩
  · intro clings
    have longest := isLongestPrefix_takeWhile Numeral.clings behind
    obtain ⟨first, others, excess_eq⟩ :
        ∃ first others,
          behind.takeWhile Numeral.clings = first :: others := by
      apply List.exists_cons_of_ne_nil
      intro noExcess
      apply clings
      have stops := Stops.drop_length_takeWhile Numeral.clings behind
      rwa [noExcess] at stops
    rw [excess_eq] at munch_eq longest
    rw [munch_eq]
    exact ⟨first :: others, _, longest, rfl, rfl⟩

end Lexeme

/-- Words and numerals of a text are as long as possible, and a text is nothing
but a constant exactly if it is the spelling of a number. -/
theorem LexItem.ofSource_takes_longest (source : String) :
    (∀ item ∈ ofSource source,
      ∃ before rest,
        source.toList = before ++ rest ∧
          item.position.offset = (String.ofList before).utf8ByteSize ∧
            (∀ head ∈ rest.head?,
              head.isAlpha = true → item.IsLongestWord rest) ∧
              ∀ head ∈ rest.head?,
                head.isDigit = true → item.IsLongestNumber rest) ∧
      ((∃ token,
        Token.ofSource source = .ok [token] ∧
          token.word = ⟨.constant, source⟩) ↔
        IsNumber source) := by
  constructor
  · intro item member
    obtain ⟨before, head, rest, source_eq, rfl⟩ :=
      exists_munch_of_mem_ofSource member
    refine ⟨before, head :: rest, source_eq, ?_, ?_, ?_⟩
    · rw [Lexeme.position_item]
      rfl
    · rintro _ ⟨⟩ isAlpha
      exact Lexeme.isLongestWord_munch isAlpha rest _
    · rintro _ ⟨⟩ isDigit
      exact Lexeme.isLongestNumber_munch isDigit rest _
  · constructor
    · rintro ⟨token, lexed, word_eq⟩
      have spells := Token.spells_of_ofSource lexed
      have isValid := spells.isValid_of_mem (List.mem_singleton.mpr rfl)
      rw [word_eq] at isValid
      exact isValid
    · intro isNumber
      have isValid : Word.IsValid ⟨.constant, source⟩ := isNumber
      have spells := Spells.cons isValid (Stops.nil _) .nil
      rw [List.append_nil] at spells
      obtain ⟨tokens, lexed, words_eq⟩ := Token.ofSource_of_spells spells
      obtain ⟨token, rfl, word_eq⟩ := List.map_eq_singleton_iff.mp words_eq
      exact ⟨token, lexed, word_eq⟩

/-- A numeral with a fraction and an exponent runs into a letter. -/
theorem LexItem.ofSource_takes_longest_spoilt :
    .error ⟨.malformedConstant "1.5e+2x.", ⟨3, 1, 4⟩⟩ ∈
        ofSource "x1+1.5e+2x." ∧
      ∃ before rest,
        "x1+1.5e+2x.".toList = before ++ rest ∧
          3 = (String.ofList before).utf8ByteSize ∧
            (∀ head ∈ rest.head?,
              head.isAlpha = true →
                IsLongestWord
                  (.error ⟨.malformedConstant "1.5e+2x.", ⟨3, 1, 4⟩⟩) rest) ∧
              ∀ head ∈ rest.head?,
                head.isDigit = true →
                  IsLongestNumber
                    (.error ⟨.malformedConstant "1.5e+2x.", ⟨3, 1, 4⟩⟩)
                    rest := by
  have member :
      .error ⟨.malformedConstant "1.5e+2x.", ⟨3, 1, 4⟩⟩ ∈
        ofSource "x1+1.5e+2x." := by
    have items_eq :
        ofSource "x1+1.5e+2x." =
          [.ok ⟨.identifier, "x1", ⟨0, 1, 1⟩⟩,
            .ok ⟨.arithmetic, "+", ⟨2, 1, 3⟩⟩,
            .error ⟨.malformedConstant "1.5e+2x.", ⟨3, 1, 4⟩⟩] := by
      cbv
    rw [items_eq]
    simp
  exact ⟨member, (ofSource_takes_longest _).1 _ member⟩

end ConditionalAssignment
