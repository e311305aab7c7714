import ConditionalAssignment.Proofs.Lexing.Tiling

/-!
# Places counted by bytes

A scanner may also read the bytes of a text and move its place over one byte
after another.  A byte that starts no token is then the first of a character
that may have several, and the scanner skips all of them as one column.  The
step of a cursor reads and counts characters throughout; the main result says
that it comes to the same places as a step that counts in this way.
-/

namespace ConditionalAssignment

/-! ## Characters and their bytes -/

/-- The UTF-8 bytes of a text. -/
def bytesOf (text : List Char) : List UInt8 :=
  text.flatMap String.utf8EncodeChar

/-- The byte is a character of its own, and the character passes the test. -/
def onByte (test : Char → Bool) (byte : UInt8) : Bool :=
  decide (byte < 128) && test (Char.ofUInt8 byte)

section

variable
  {character : Char}
  (isByte : character.utf8Size = 1)
include isByte

theorem bytesOf_cons (rest : List Char) :
    bytesOf (character :: rest) = character.val.toUInt8 :: bytesOf rest := by
  rw [bytesOf, List.flatMap_cons, String.utf8EncodeChar_eq_singleton isByte]
  rfl

theorem toNat_val_le : character.val.toNat ≤ 127 :=
  UInt32.le_iff_toNat_le.mp (Char.utf8Size_eq_one_iff.mp isByte)

theorem toNat_toUInt8 :
    character.val.toUInt8.toNat = character.val.toNat := by
  have atMost := toNat_val_le isByte
  rw [UInt32.toNat_toUInt8]
  exact Nat.mod_eq_of_lt (by omega)

/-- The byte of a character is a line feed exactly if the character is. -/
theorem toUInt8_eq_lineFeed_iff :
    character.val.toUInt8 = 10 ↔ character = '\n' := by
  rw [← UInt8.toNat_inj, Char.ext_iff, ← UInt32.toNat_inj,
    toNat_toUInt8 isByte]
  rfl

/-- The byte of a character passes a test exactly if the character does. -/
theorem onByte_toUInt8 (test : Char → Bool) :
    onByte test character.val.toUInt8 = test character := by
  have toNat_eq := toNat_toUInt8 isByte
  have isLow : character.val.toUInt8 < 128 := by
    rw [UInt8.lt_iff_toNat_lt, toNat_eq]
    exact Nat.lt_succ_of_le (toNat_val_le isByte)
  have isSame : Char.ofUInt8 character.val.toUInt8 = character := by
    rw [Char.ext_iff, ← UInt32.toNat_inj, ← toNat_eq]
    exact UInt8.toNat_toUInt32 _
  rw [onByte, isSame, decide_eq_true isLow, Bool.true_and]

end

/-- The first of several bytes of a character is no character of its own. -/
theorem exists_utf8EncodeChar_eq_cons
    {character : Char}
    (isWide : character.utf8Size ≠ 1) :
    ∃ first others,
      String.utf8EncodeChar character = first :: others ∧ 128 ≤ first := by
  have exceeds : ¬ character.val.toNat ≤ 127 := by
    rw [Ne, Char.utf8Size_eq_one_iff, UInt32.le_iff_toNat_le] at isWide
    exact isWide
  have isHigh {value : Nat} (atLeast : 128 ≤ value) (small : value < 256) :
      (128 : UInt8) ≤ UInt8.ofNat value := by
    rw [UInt8.le_iff_toNat_le, UInt8.toNat_ofNat', Nat.mod_eq_of_lt small]
    exact atLeast
  simp only [String.utf8EncodeChar, if_neg exceeds]
  -- The first of two, three or four bytes is at least 192, 224 or 240.
  split
  · exact ⟨_, _, rfl, isHigh (by omega) (by omega)⟩
  · split
    · exact ⟨_, _, rfl, isHigh (by omega) (by omega)⟩
    · exact ⟨_, _, rfl, isHigh (by omega) (by omega)⟩

/-- Every blank is one byte. -/
theorem utf8Size_of_isBlank
    {character : Char}
    (blank : isBlank character = true) :
    character.utf8Size = 1 := by
  rw [isBlank_eq_true_iff] at blank
  obtain rfl | rfl | rfl | rfl | rfl := blank <;> rfl

/-! ## Moving over bytes -/

namespace Position

/-- Move over one byte.  Only the byte of a line feed starts a new line. -/
def advanceByte (position : Position) (byte : UInt8) : Position :=
  if byte = 10 then
    ⟨position.offset + 1, position.line + 1, 1⟩
  else
    ⟨position.offset + 1, position.line, position.column + 1⟩

/-- The position after a stretch of bytes. -/
def afterBytes (position : Position) (bytes : List UInt8) : Position :=
  bytes.foldl advanceByte position

/-- Move over bytes as long as they pass a test.  The bytes from the first that
fails are left. -/
def advanceWhile (test : UInt8 → Bool) :
    Position → List UInt8 → Position × List UInt8
  | position, [] => (position, [])
  | position, byte :: rest =>
      if test byte then
        advanceWhile test (position.advanceByte byte) rest
      else
        (position, byte :: rest)

/-- Skip all bytes of a character as one column of the line. -/
def skip (position : Position) (character : Char) : Position :=
  ⟨position.offset + character.utf8Size, position.line, position.column + 1⟩

/-- To move over a character of one byte is to move over that byte. -/
theorem advanceByte_toUInt8
    {character : Char}
    (isByte : character.utf8Size = 1)
    (position : Position) :
    position.advanceByte character.val.toUInt8 =
      position.advance character := by
  simp only [advanceByte, advance, toUInt8_eq_lineFeed_iff isByte, isByte]

/-- To move over characters of one byte each is to move over their bytes. -/
theorem afterBytes_bytesOf
    {text : List Char}
    (areBytes : ∀ character ∈ text, character.utf8Size = 1)
    (position : Position) :
    position.afterBytes (bytesOf text) = position.after text := by
  induction text generalizing position with
  | nil => rfl
  | cons character rest inductionHypothesis =>
      obtain ⟨isByte, restAreBytes⟩ := List.forall_mem_cons.mp areBytes
      rw [bytesOf_cons isByte, after_cons, ← advanceByte_toUInt8 isByte,
        ← inductionHypothesis restAreBytes]
      rfl

/-- A run of bytes ends where the run of characters does, if the test accepts
only characters of one byte. -/
theorem advanceWhile_bytesOf
    {test : Char → Bool}
    (onBytes : ∀ character, test character = true → character.utf8Size = 1)
    (position : Position)
    (text : List Char) :
    advanceWhile (onByte test) position (bytesOf text) =
      (position.after (text.takeWhile test),
        bytesOf (text.dropWhile test)) := by
  induction text generalizing position with
  | nil => rfl
  | cons character rest inductionHypothesis =>
      by_cases isByte : character.utf8Size = 1
      · rw [bytesOf_cons isByte, advanceWhile, onByte_toUInt8 isByte]
        cases passes : test character with
        | true =>
            rw [if_pos rfl, inductionHypothesis,
              advanceByte_toUInt8 isByte, List.takeWhile_cons_of_pos passes,
              List.dropWhile_cons_of_pos passes, after_cons]
        | false =>
            have fails : ¬ test character = true := by
              rw [passes]
              exact Bool.false_ne_true
            rw [if_neg Bool.false_ne_true, List.takeWhile_cons_of_neg fails,
              List.dropWhile_cons_of_neg fails, bytesOf_cons isByte, after_nil]
      · -- A wide character fails the test, and its first byte does.
        have fails : ¬ test character = true := mt (onBytes character) isByte
        obtain ⟨first, others, encoded_eq, isHigh⟩ :=
          exists_utf8EncodeChar_eq_cons isByte
        have firstFails : ¬ onByte test first = true := by
          rw [onByte, decide_eq_false (UInt8.not_lt.mpr isHigh)]
          exact Bool.false_ne_true
        rw [List.takeWhile_cons_of_neg fails, List.dropWhile_cons_of_neg fails,
          bytesOf, List.flatMap_cons, encoded_eq, List.cons_append,
          advanceWhile, if_neg firstFails, after_nil]

/-- To skip a character that ends no line is to move over it. -/
theorem skip_eq_advance
    {character : Char}
    (isOther : character ≠ '\n')
    (position : Position) :
    position.skip character = position.advance character := by
  rw [skip, advance, if_neg isOther]

end Position

/-! ## The step by bytes -/

/-- The place behind a lexeme, counted by bytes.  A character that starts no
token is skipped as a whole. -/
def Lexeme.leave (lexeme : Lexeme) (place : Position) : Position :=
  match lexeme.verdict with
  | .error (.unexpectedCharacter character) => place.skip character
  | _ => place.afterBytes (bytesOf lexeme.text)

/-- A lexeme without a line feed is left at the same place by bytes as by
characters. -/
theorem Lexeme.leave_munch
    {head : Char}
    {rest : List Char}
    (isLine : '\n' ∉ (munch head rest).text)
    (place : Position) :
    (munch head rest).leave place = place.after (munch head rest).text := by
  unfold leave
  split
  · rename_i character unexpected
    -- The fault names the whole lexeme, so the character is all of it.
    have text_eq : [character] = (munch head rest).text :=
      namesFault_munch head rest _ unexpected
    have isOther : character ≠ '\n' := by
      rintro rfl
      rw [← text_eq] at isLine
      exact isLine List.mem_cons_self
    rw [← text_eq, Position.skip_eq_advance isOther]
    rfl
  · rename_i expected
    exact Position.afterBytes_bytesOf
      (fun _ => utf8Size_of_mem_text_munch (expected head)) place

namespace Cursor

/-- Skip blanks and take one item, moving the place over the bytes. -/
def nextByBytes? (cursor : Cursor) : Option (LexItem × Cursor) :=
  let (place, _) :=
    cursor.position.advanceWhile (onByte isBlank) (bytesOf cursor.rest)
  match cursor.rest.dropWhile isBlank with
  | [] => none
  | character :: rest =>
      let lexeme := Lexeme.munch character rest
      some
        (lexeme.item place,
          ⟨lexeme.leave place, rest.drop lexeme.tail.length⟩)

/-- Counting by bytes, every step gives the same item at the same place and
goes on from the same place. -/
theorem nextByBytes?_eq_next? (cursor : Cursor) :
    cursor.nextByBytes? = cursor.next? := by
  unfold nextByBytes? next?
  rw [Position.advanceWhile_bytesOf (fun _ => utf8Size_of_isBlank)]
  cases remaining_eq : cursor.rest.dropWhile isBlank with
  | nil => rfl
  | cons head rest =>
      have isLine := lineFeed_not_mem_of_dropWhile_eq_cons remaining_eq
      simp only [Lexeme.leave_munch isLine]

end Cursor

end ConditionalAssignment
