import ConditionalAssignment.Numeral

/-!
# Spellings of numerals

A spelling is described by its parts: digits, then perhaps a fraction, then
perhaps an exponent.  The scanner takes each part greedily and looks only a few
characters ahead.  This module proves that what it takes after a digit is
always the rest of a spelling, and that it takes a whole spelling wherever no
letter, digit or point follows.
-/

namespace ConditionalAssignment

/-- A text does not start with a character that satisfies a test. -/
def Stops (test : Char → Bool) (text : List Char) : Prop :=
  ∀ character ∈ text.head?, test character = false

theorem Stops.nil (test : Char → Bool) : Stops test [] := by
  intro character found
  cases found

theorem Stops.cons
    {test : Char → Bool}
    {character : Char}
    (fails : test character = false)
    (rest : List Char) :
    Stops test (character :: rest) := by
  intro found foundHead
  cases foundHead
  exact fails

/-- A test that accepts less stops wherever one that accepts more does. -/
theorem Stops.mono
    {weaker stronger : Char → Bool}
    {text : List Char}
    (stops : Stops weaker text)
    (implies : ∀ character,
      stronger character = true → weaker character = true) :
    Stops stronger text := by
  intro character found
  have weakerFails := stops character found
  cases strongerResult : stronger character with
  | false => rfl
  | true => simp [implies character strongerResult] at weakerFails

/-- What a scan leaves does not start with a character that it would take. -/
theorem Stops.drop_length_takeWhile
    (test : Char → Bool)
    (text : List Char) :
    Stops test (text.drop (text.takeWhile test).length) := by
  induction text with
  | nil => exact Stops.nil test
  | cons character rest inductionHypothesis =>
      cases satisfied : test character with
      | false => simpa [satisfied] using Stops.cons satisfied rest
      | true => simpa [satisfied] using inductionHypothesis

/-- A scan takes exactly a run that is followed by a stop. -/
theorem takeWhile_append_of_stops
    {test : Char → Bool}
    {run rest : List Char}
    (accepted : ∀ character ∈ run, test character = true)
    (stops : Stops test rest) :
    (run ++ rest).takeWhile test = run := by
  rw [List.takeWhile_append_of_pos accepted]
  cases rest with
  | nil => simp
  | cons character others =>
      have rejected := stops character rfl
      simp [rejected]

/-- A scan takes nothing where it stops at once. -/
theorem takeWhile_of_stops
    {test : Char → Bool}
    {text : List Char}
    (stops : Stops test text) :
    text.takeWhile test = [] := by
  rw [← List.nil_append text]
  exact takeWhile_append_of_stops (by simp) stops

namespace Numeral

/-- A run of at least one digit. -/
def IsDigits (text : List Char) : Prop :=
  text ≠ [] ∧ ∀ character ∈ text, character.isDigit = true

/-- Nothing, or a point and digits. -/
def IsFraction (text : List Char) : Prop :=
  text = [] ∨ ∃ run, IsDigits run ∧ text = '.' :: run

/-- Nothing, or a letter `e` or `E`, perhaps a sign, and digits. -/
def IsExponent (text : List Char) : Prop :=
  text = [] ∨
    ∃ mark sign run,
      (mark = 'e' ∨ mark = 'E') ∧
        (sign = [] ∨ sign = ['+'] ∨ sign = ['-']) ∧
          IsDigits run ∧ text = mark :: (sign ++ run)

/-- Digits, then perhaps a fraction, then perhaps an exponent. -/
def IsSpelling (text : List Char) : Prop :=
  ∃ whole fraction exponent,
    IsDigits whole ∧ IsFraction fraction ∧ IsExponent exponent ∧
      text = whole ++ fraction ++ exponent

/-- A spelling starts with a digit. -/
theorem IsSpelling.exists_digit
    {text : List Char}
    (isSpelling : IsSpelling text) :
    ∃ digit others, text = digit :: others ∧ digit.isDigit = true := by
  obtain ⟨whole, fraction, exponent, isDigits, _, _, rfl⟩ := isSpelling
  cases whole with
  | nil => exact absurd rfl isDigits.1
  | cons digit others =>
      refine ⟨digit, others ++ fraction ++ exponent, rfl, ?_⟩
      exact isDigits.2 digit (by simp)

/-! ## Every part that is taken is a part of a spelling -/

theorem isFraction_fraction (text : List Char) :
    IsFraction (fraction text) := by
  unfold fraction
  split
  · rename_i rest
    split
    · exact Or.inl rfl
    · rename_i digit others digits_eq
      refine Or.inr ⟨digit :: others, ⟨by simp, ?_⟩, rfl⟩
      intro character member
      rw [← digits_eq] at member
      exact isDigit_of_mem_digits member
  · exact Or.inl rfl

theorem sign_eq (text : List Char) :
    sign text = [] ∨ sign text = ['+'] ∨ sign text = ['-'] := by
  unfold sign
  split <;> simp

theorem isExponent_exponent (text : List Char) :
    IsExponent (exponent text) := by
  unfold exponent
  split
  · exact Or.inl rfl
  · rename_i mark rest
    split
    · rename_i isMark
      split
      · exact Or.inl rfl
      · rename_i digit others digits_eq
        refine Or.inr
          ⟨mark, sign rest, digit :: others, isMark, sign_eq rest,
            ⟨by simp, ?_⟩, rfl⟩
        intro character member
        rw [← digits_eq] at member
        exact isDigit_of_mem_digits member
    · exact Or.inl rfl

/-- A digit and what continues it are a spelling. -/
theorem isSpelling_cons_continuation
    {digit : Char}
    (isDigit : digit.isDigit = true)
    (text : List Char) :
    IsSpelling (digit :: continuation text) := by
  let fractionText := fraction (text.drop (digits text).length)
  let exponentText :=
    exponent ((text.drop (digits text).length).drop fractionText.length)
  have isDigits : IsDigits (digit :: digits text) := by
    refine ⟨by simp, ?_⟩
    intro character member
    rcases List.mem_cons.mp member with rfl | laterMember
    · exact isDigit
    · exact isDigit_of_mem_digits laterMember
  refine ⟨digit :: digits text, fractionText, exponentText, isDigits,
    isFraction_fraction _, isExponent_exponent _, ?_⟩
  simp [continuation, scale, fractionText, exponentText]

/-! ## A whole spelling is taken -/

theorem digits_append_of_stops
    {run rest : List Char}
    (accepted : ∀ character ∈ run, character.isDigit = true)
    (stops : Stops Char.isDigit rest) :
    digits (run ++ rest) = run :=
  takeWhile_append_of_stops accepted stops

theorem clings_of_isDigit
    (character : Char)
    (isDigit : character.isDigit = true) :
    clings character = true := by
  simp [clings, Char.isAlphanum, isDigit]

/-- The exponent is absent where nothing that clings to a numeral follows. -/
theorem exponent_of_stops
    {rest : List Char}
    (stops : Stops clings rest) :
    exponent rest = [] := by
  cases rest with
  | nil => rfl
  | cons character others =>
      have free := stops character rfl
      have isNoMark : ¬ (character = 'e' ∨ character = 'E') := by
        rintro (rfl | rfl) <;> simp [clings, Char.isAlphanum] at free
      simp [exponent, isNoMark]

theorem sign_append
    {sign run : List Char}
    (isSign : sign = [] ∨ sign = ['+'] ∨ sign = ['-'])
    (isDigits : IsDigits run)
    (rest : List Char) :
    Numeral.sign (sign ++ run ++ rest) = sign := by
  obtain ⟨nonempty, accepted⟩ := isDigits
  rcases isSign with rfl | rfl | rfl
  · cases run with
    | nil => exact absurd rfl nonempty
    | cons digit others =>
        have isDigit := accepted digit (by simp)
        unfold Numeral.sign
        split
        · rename_i plus
          cases plus
          exact absurd isDigit (by decide)
        · rename_i minus
          cases minus
          exact absurd isDigit (by decide)
        · rfl
  · rfl
  · rfl

/-- A whole exponent is taken. -/
theorem exponent_append_of_stops
    {text rest : List Char}
    (isExponent : IsExponent text)
    (stops : Stops clings rest) :
    exponent (text ++ rest) = text := by
  rcases isExponent with rfl | ⟨mark, sign, run, isMark, isSign, isDigits, rfl⟩
  · exact exponent_of_stops stops
  · have taken : digits (run ++ rest) = run :=
      digits_append_of_stops isDigits.2 (stops.mono clings_of_isDigit)
    have sign_eq := sign_append isSign isDigits rest
    rw [List.append_assoc] at sign_eq
    cases run with
    | nil => exact absurd rfl isDigits.1
    | cons digit others =>
        simp only [exponent, List.cons_append, List.append_assoc,
          isMark, if_true] at sign_eq taken ⊢
        rw [sign_eq, List.drop_left, taken]

/-- An exponent and what follows it do not start with a digit or a point. -/
theorem IsExponent.stops_append
    {text rest : List Char}
    (isExponent : IsExponent text)
    (stops : Stops clings rest) :
    Stops (fun character => character.isDigit || character == '.')
      (text ++ rest) := by
  rcases isExponent with rfl | ⟨mark, sign, run, isMark, _, _, rfl⟩
  · refine stops.mono fun character accepted => ?_
    rcases Bool.or_eq_true_iff.mp accepted with isDigit | isPoint
    · exact clings_of_isDigit character isDigit
    · simp [clings, isPoint]
  · apply Stops.cons
    rcases isMark with rfl | rfl <;> decide

/-- A whole fraction is taken. -/
theorem fraction_append_of_stops
    {text rest : List Char}
    (isFraction : IsFraction text)
    (stops : Stops (fun character => character.isDigit || character == '.')
      rest) :
    fraction (text ++ rest) = text := by
  rcases isFraction with rfl | ⟨run, isDigits, rfl⟩
  · unfold fraction
    split
    · rename_i others rest_eq
      have rejected := stops '.' (by simp_all)
      exact absurd rejected (by decide)
    · rfl
  · have taken : digits (run ++ rest) = run := by
      refine digits_append_of_stops isDigits.2 (stops.mono ?_)
      intro character isDigit
      simp [isDigit]
    cases run with
    | nil => exact absurd rfl isDigits.1
    | cons digit others =>
        simp only [List.cons_append] at taken
        simp only [fraction, List.cons_append, taken]

/-- The rest of a spelling is taken where nothing that clings to it follows. -/
theorem continuation_append_of_stops
    {digit : Char}
    {text rest : List Char}
    (isSpelling : IsSpelling (digit :: text))
    (stops : Stops clings rest) :
    continuation (text ++ rest) = text := by
  obtain ⟨whole, fractionText, exponentText, isDigits, isFraction, isExponent,
    text_eq⟩ := isSpelling
  cases whole with
  | nil => exact absurd rfl isDigits.1
  | cons first others =>
      simp only [List.cons_append, List.cons.injEq] at text_eq
      obtain ⟨rfl, rfl⟩ := text_eq
      have exponentStops := isExponent.stops_append stops
      have fractionStops :
          Stops Char.isDigit (fractionText ++ (exponentText ++ rest)) := by
        rcases isFraction with rfl | ⟨run, _, rfl⟩
        · refine exponentStops.mono fun character isDigit => ?_
          simp [isDigit]
        · exact Stops.cons (by decide) _
      have whole_eq :
          digits (others ++ (fractionText ++ (exponentText ++ rest))) =
            others := by
        refine digits_append_of_stops ?_ fractionStops
        intro character member
        exact isDigits.2 character (List.mem_cons_of_mem _ member)
      simp only [List.append_assoc, continuation, scale, whole_eq,
        List.drop_left, fraction_append_of_stops isFraction exponentStops,
        exponent_append_of_stops isExponent stops]

end Numeral

end ConditionalAssignment
