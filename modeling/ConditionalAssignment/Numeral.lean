/-!
# Numerals

A numeral is a run of digits, then perhaps a fraction, then perhaps an
exponent.  A fraction is a point and a run of digits; an exponent is a letter
`e` or `E`, perhaps a sign, and a run of digits.  Each part is taken only if it
is complete, so a point or a letter that no digit follows stays in the text.

Every function of this module returns the part that it takes from the front of
a text, which is empty where the part is absent.
-/

namespace ConditionalAssignment

theorem isAlphanum_of_isAlpha
    {character : Char}
    (isAlpha : character.isAlpha = true) :
    character.isAlphanum = true := by
  simp [Char.isAlphanum, isAlpha]

theorem isAlphanum_of_isDigit
    {character : Char}
    (isDigit : character.isDigit = true) :
    character.isAlphanum = true := by
  simp [Char.isAlphanum, isDigit]

/-- Every letter and every digit is one byte. -/
theorem utf8Size_of_isAlphanum
    {character : Char}
    (isAlphanum : character.isAlphanum = true) :
    character.utf8Size = 1 := by
  have atMost : character.toNat ≤ 127 := by
    obtain isAlpha | isDigit := Bool.or_eq_true_iff.mp isAlphanum
    · obtain isUpper | isLower := Bool.or_eq_true_iff.mp isAlpha
      · have bounds := of_decide_eq_true isUpper
        exact Nat.le_trans (UInt32.le_iff_toNat_le.mp bounds.2) (by decide)
      · have bounds := Bool.and_eq_true_iff.mp isLower
        exact Nat.le_trans
          (UInt32.le_iff_toNat_le.mp (of_decide_eq_true bounds.2)) (by decide)
    · exact Nat.le_trans (Char.isDigit_iff_toNat.mp isDigit).2 (by decide)
  rw [Char.utf8Size_eq_one_iff, UInt32.le_iff_toNat_le]
  exact atMost

namespace Numeral

/-- The digits at the front of a text. -/
def digits (text : List Char) : List Char :=
  text.takeWhile Char.isDigit

/-- The fraction at the front of a text. -/
def fraction : List Char → List Char
  | '.' :: rest =>
      match digits rest with
      | [] => []
      | digit :: others => '.' :: digit :: others
  | _ => []

/-- The sign at the front of a text. -/
def sign : List Char → List Char
  | '+' :: _ => ['+']
  | '-' :: _ => ['-']
  | _ => []

/-- The exponent at the front of a text. -/
def exponent : List Char → List Char
  | [] => []
  | mark :: rest =>
      if mark = 'e' ∨ mark = 'E' then
        match digits (rest.drop (sign rest).length) with
        | [] => []
        | digit :: others => mark :: (sign rest ++ digit :: others)
      else
        []

/-- The fraction and the exponent at the front of a text. -/
def scale (text : List Char) : List Char :=
  fraction text ++ exponent (text.drop (fraction text).length)

/-- What continues a numeral after its first digit. -/
def continuation (text : List Char) : List Char :=
  digits text ++ scale (text.drop (digits text).length)

/-- The character may not directly follow a numeral. -/
def clings (character : Char) : Bool :=
  character.isAlphanum || character == '.'

/-! ## Every part is taken from the front -/

theorem isPrefix_digits (text : List Char) :
    digits text <+: text :=
  List.takeWhile_prefix _

theorem isPrefix_fraction (text : List Char) :
    fraction text <+: text := by
  unfold fraction
  split
  · rename_i rest
    have taken := isPrefix_digits rest
    split
    · exact List.nil_prefix
    · rename_i digits_eq
      rw [digits_eq] at taken
      exact List.cons_prefix_cons.mpr ⟨rfl, taken⟩
  · exact List.nil_prefix

theorem isPrefix_sign (text : List Char) :
    sign text <+: text := by
  unfold sign
  split
  · exact List.cons_prefix_cons.mpr ⟨rfl, List.nil_prefix⟩
  · exact List.cons_prefix_cons.mpr ⟨rfl, List.nil_prefix⟩
  · exact List.nil_prefix

/-- A part and a part of what is left after it are a part together. -/
theorem isPrefix_append_drop
    {text first second : List Char}
    (firstTaken : first <+: text)
    (secondTaken : second <+: text.drop first.length) :
    first ++ second <+: text := by
  obtain ⟨rest, rfl⟩ := firstTaken
  rw [List.drop_left] at secondTaken
  exact (List.prefix_append_right_inj first).mpr secondTaken

theorem isPrefix_exponent (text : List Char) :
    exponent text <+: text := by
  unfold exponent
  split
  · exact List.nil_prefix
  · rename_i mark rest
    split
    · have taken := isPrefix_digits (rest.drop (sign rest).length)
      split
      · exact List.nil_prefix
      · rename_i digits_eq
        rw [digits_eq] at taken
        exact List.cons_prefix_cons.mpr
          ⟨rfl, isPrefix_append_drop (isPrefix_sign rest) taken⟩
    · exact List.nil_prefix

theorem isPrefix_scale (text : List Char) :
    scale text <+: text :=
  isPrefix_append_drop (isPrefix_fraction text) (isPrefix_exponent _)

theorem isPrefix_continuation (text : List Char) :
    continuation text <+: text :=
  isPrefix_append_drop (isPrefix_digits text) (isPrefix_scale _)

/-! ## The characters of the parts -/

section

variable {text : List Char} {character : Char}

theorem isDigit_of_mem_digits
    (member : character ∈ digits text) :
    character.isDigit = true := by
  have taken := List.all_takeWhile (p := Char.isDigit) (l := text)
  exact List.all_eq_true.mp taken character member

theorem eq_or_isDigit_of_mem_fraction
    (member : character ∈ fraction text) :
    character = '.' ∨ character.isDigit = true := by
  unfold fraction at member
  split at member
  · split at member
    · cases member
    · rename_i digits_eq
      rw [← digits_eq] at member
      exact (List.mem_cons.mp member).imp_right isDigit_of_mem_digits
  · cases member

theorem mem_signs_of_mem_sign
    (member : character ∈ sign text) :
    character ∈ ['+', '-'] := by
  unfold sign at member
  split at member
  · exact List.mem_cons.mpr (Or.inl (List.mem_singleton.mp member))
  · exact List.mem_cons_of_mem _ member
  · cases member

theorem isAlphanum_or_mem_of_mem_exponent
    (member : character ∈ exponent text) :
    character.isAlphanum = true ∨ character ∈ ['+', '-'] := by
  unfold exponent at member
  split at member
  · cases member
  · split at member
    · rename_i isMark
      split at member
      · cases member
      · rename_i digits_eq
        rw [← digits_eq, List.mem_cons, List.mem_append] at member
        obtain rfl | signMember | digitMember := member
        · obtain rfl | rfl := isMark <;> exact Or.inl rfl
        · exact Or.inr (mem_signs_of_mem_sign signMember)
        · exact Or.inl
            (isAlphanum_of_isDigit (isDigit_of_mem_digits digitMember))
    · cases member

/-- Only letters, digits, points and signs continue a numeral. -/
theorem isAlphanum_or_mem_of_mem_continuation
    (member : character ∈ continuation text) :
    character.isAlphanum = true ∨ character ∈ ['.', '+', '-'] := by
  rw [continuation, scale, List.mem_append, List.mem_append] at member
  obtain wholeMember | fractionMember | exponentMember := member
  · exact Or.inl (isAlphanum_of_isDigit (isDigit_of_mem_digits wholeMember))
  · obtain rfl | isDigit := eq_or_isDigit_of_mem_fraction fractionMember
    · exact Or.inr List.mem_cons_self
    · exact Or.inl (isAlphanum_of_isDigit isDigit)
  · exact (isAlphanum_or_mem_of_mem_exponent exponentMember).imp_right
      (List.mem_cons_of_mem _)

end

end Numeral
end ConditionalAssignment
